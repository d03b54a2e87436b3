/-
Text shown between quotes, as it stands in messages.

The quotes are single ones, unless the text holds a single quote and no double
quote.  Inside, the backslash and the quote in use are escaped, the tab and the
two line breaks have their letters, and every other character that is not
printable is written by its code in the shortest of three hexadecimal forms.  A
row of bytes is shown in the same way behind a letter, with no byte above 126
printable.
-/
import TreeLint.Text.Printable
import TreeLint.Text.Surrogate
namespace TreeLint.Text

/-- The hexadecimal digits of a number, padded with zeros to a width. -/
def paddedHex (upper : Bool) (width n : Nat) : String :=
  let digits := Nat.toDigits 16 n
  let digits := if upper then digits.map Char.toUpper else digits
  String.ofList (List.replicate (width - digits.length) '0' ++ digits)

/-- The escape of a character by its code: two, four or eight hexadecimal digits. -/
def codeEscape (upper : Bool) (n : Nat) : String :=
  if n < 0x100 then "\\x" ++ paddedHex upper 2 n
  else if n < 0x10000 then "\\u" ++ paddedHex upper 4 n
  else "\\U" ++ paddedHex upper 8 n

/-- One character that stands between two quotes, for a class of printable characters. -/
def quotedBy (printable : Char → Bool) (quote c : Char) : String :=
  if c == quote || c == '\\' then "\\" ++ c.toString
  else if c == '\n' then "\\n"
  else if c == '\r' then "\\r"
  else if c == '\t' then "\\t"
  else if printable c then c.toString
  else codeEscape false (codeOf c)

/-- One character of a text that stands between two quotes. -/
def quotedChar (quote c : Char) : String := quotedBy isPrintable quote c

/-- The quote put around a text: the double one only if it saves an escape. -/
def quoteFor (s : List Char) : Char :=
  if s.contains '\'' && !s.contains '"' then '"' else '\''

/-- A text between quotes. -/
def quoted (s : String) : String :=
  let quote := quoteFor s.toList
  quote.toString ++ String.join (s.toList.map (quotedChar quote)) ++ quote.toString

/-- Whether the character of a byte is printable. -/
def isPrintableByte (c : Char) : Bool := 0x20 ≤ c.toNat && c.toNat < 0x7F

/-- A row of bytes between quotes. -/
def quotedBytes (bytes : List UInt8) : String :=
  let s := bytes.map (fun b => Char.ofNat b.toNat)
  let quote := quoteFor s
  "b" ++ quote.toString ++ String.join (s.map (quotedBy isPrintableByte quote)) ++ quote.toString

end TreeLint.Text
