/-
Values as JSON text.

`Value.ofJson?` reads a text and keeps the order of the fields of an object;
`Value.toJson` writes a value on one line.  Integers have any size, and numbers
that are not finite are written by their names.  A reader takes the characters
that are left and returns a value with the characters behind it.
-/
import TreeLint.Decimal.Nearest
import TreeLint.Output.Document
import TreeLint.Text.Radix
import TreeLint.Value
namespace TreeLint.Value

/-! ### Scalars -/

/-- Whether a character may stand between the parts of a JSON text. -/
def isJsonSpace (c : Char) : Bool := c == ' ' || c == '\t' || c == '\n' || c == '\r'

/-- The characters from the first that is no space. -/
def skipJsonSpace (s : List Char) : List Char := s.dropWhile isJsonSpace

/-- The number that some decimal digits stand for. -/
def decimalNumber (digits : List Char) : Nat := (Text.ofRadix? 10 digits).getD 0

/-- The character of a code unit, or of two that make a pair; half of a pair may stand alone. -/
def readUnit (unit : Nat) (rest : List Char) : Option (Char × List Char) :=
  let lone := some (Text.ofCode unit, rest)
  if unit < 0xD800 || 0xE000 ≤ unit then some (Char.ofNat unit, rest)
  else if 0xDC00 ≤ unit then lone
  else match rest with
    | '\\' :: 'u' :: a :: b :: c :: d :: rest' =>
      match Text.ofRadix? 16 [a, b, c, d] with
      | some low =>
        if 0xDC00 ≤ low && low < 0xE000 then
          some (Char.ofNat (0x10000 + (unit - 0xD800) * 0x400 + (low - 0xDC00)), rest')
        else lone
      | none => lone
    | _ => lone

/-- The character that a letter behind a backslash stands for. -/
def escapedChar (c : Char) : Char :=
  if c = 'n' then '\n'
  else if c = 't' then '\t'
  else if c = 'r' then '\r'
  else if c = 'b' then '\x08'
  else if c = 'f' then '\x0c'
  else c

/-- Reads a text whose opening quote has been read. -/
def readJsonString : Nat → List Char → List Char → Option (String × List Char)
  | 0, _, _ => none
  | fuel + 1, found, s =>
    match s with
    | '"' :: rest => some (String.ofList found.reverse, rest)
    | '\\' :: 'u' :: a :: b :: c :: d :: rest => do
      let unit ← Text.ofRadix? 16 [a, b, c, d]
      let (c, rest) ← readUnit unit rest
      readJsonString fuel (c :: found) rest
    | '\\' :: c :: rest => readJsonString fuel (escapedChar c :: found) rest
    | c :: rest => readJsonString fuel (c :: found) rest
    | [] => none

/-- Reads the sign of a number: whether it is a minus. -/
def readSign : List Char → Bool × List Char
  | '-' :: rest => (true, rest)
  | '+' :: rest => (false, rest)
  | s => (false, s)

/-- Reads the digits behind the point of a number, if there is one. -/
def readFraction : List Char → Option (List Char) × List Char
  | '.' :: rest => (some (rest.takeWhile Char.isDigit), rest.dropWhile Char.isDigit)
  | s => (none, s)

/-- Reads the exponent of a number, if there is one. -/
def readExponent : List Char → Option Int × List Char
  | c :: rest =>
    if c == 'e' || c == 'E' then
      let (negative, rest) := readSign rest
      let size : Int := decimalNumber (rest.takeWhile Char.isDigit)
      (some (if negative then -size else size), rest.dropWhile Char.isDigit)
    else (none, c :: rest)
  | [] => (none, [])

/-- Reads a number: without point and exponent it is an integer. -/
def readJsonNumber (s : List Char) : Option (Value × List Char) :=
  let (negative, s) := readSign s
  let whole := s.takeWhile Char.isDigit
  if whole.isEmpty then none
  else
    let (fraction, s) := readFraction (s.dropWhile Char.isDigit)
    let (exponent, s) := readExponent s
    if fraction.isNone && exponent.isNone then
      let n : Int := decimalNumber whole
      some (int (if negative then -n else n), s)
    else
      let places := fraction.getD []
      some (float (Decimal.nearestSigned negative (decimalNumber (whole ++ places))
        (exponent.getD 0 - places.length)), s)

/-- The words of JSON, with their values. -/
def jsonWords : List (String × Value) := [
  ("true", bool true), ("false", bool false), ("null", null),
  ("NaN", float (0.0 / 0.0)), ("Infinity", float (1.0 / 0.0)),
  ("-Infinity", float (-1.0 / 0.0))]

/-- Reads a word or a number. -/
def readJsonScalar (s : List Char) : Option (Value × List Char) :=
  match jsonWords.find? (fun w => w.1.toList.isPrefixOf s) with
  | some (word, v) => some (v, s.drop word.length)
  | none => readJsonNumber s

/-! ### Lists and objects -/

mutual

/-- Reads a value. -/
def readJson : Nat → List Char → Option (Value × List Char)
  | 0, _ => none
  | fuel + 1, s =>
    match skipJsonSpace s with
    | '"' :: rest => (readJsonString (rest.length + 1) [] rest).map (fun r => (string r.1, r.2))
    | '[' :: rest =>
      match skipJsonSpace rest with
      | ']' :: rest => some (list [], rest)
      | rest => (readJsonItems fuel rest).map (fun r => (list r.1, r.2))
    | '\x7b' :: rest =>
      match skipJsonSpace rest with
      | '\x7d' :: rest => some (mapping [], rest)
      | rest => (readJsonFields fuel rest).map (fun r => (mapping r.1, r.2))
    | rest => readJsonScalar rest

/-- Reads the items of a list and the bracket behind them. -/
def readJsonItems : Nat → List Char → Option (List Value × List Char)
  | 0, _ => none
  | fuel + 1, s => do
    let (v, rest) ← readJson fuel s
    match skipJsonSpace rest with
    | ',' :: rest => (readJsonItems fuel rest).map (fun r => (v :: r.1, r.2))
    | ']' :: rest => some ([v], rest)
    | _ => none

/-- Reads the fields of an object and the brace behind them. -/
def readJsonFields : Nat → List Char → Option (List (Value × Value) × List Char)
  | 0, _ => none
  | fuel + 1, s => do
    let '"' :: rest := skipJsonSpace s | none
    let (name, rest) ← readJsonString (rest.length + 1) [] rest
    let ':' :: rest := skipJsonSpace rest | none
    let (v, rest) ← readJson fuel rest
    match skipJsonSpace rest with
    | ',' :: rest => (readJsonFields fuel rest).map (fun r => ((string name, v) :: r.1, r.2))
    | '\x7d' :: rest => some ([(string name, v)], rest)
    | _ => none

end

/-- The value of a JSON text. -/
def ofJson? (text : String) : Option Value :=
  let s := text.toList
  match readJson (s.length + 1) s with
  | some (v, rest) => if (skipJsonSpace rest).isEmpty then some v else none
  | none => none

/-! ### Writing -/

/-- A float as JSON. -/
def floatJson (x : Float) : String :=
  if x.isNaN then "NaN"
  else if x.isInf then (if x < 0 then "-Infinity" else "Infinity")
  else floatLayout.render x

variable [Machine]

/-- What stands in JSON for a value that has no JSON text: the text of the value, if it has one. -/
def shownJson (v : Value) : String := Document.stringText (v.text.toOption.getD "")

mutual

/-- The JSON text of a value; the keys of a mapping are written as texts. -/
def toJson : Value → String
  | null => "null"
  | bool b => if b then "true" else "false"
  | int n => toString n
  | float x => floatJson x
  | string s => Document.stringText s
  | list items => "[" ++ String.intercalate "," (itemsJson items) ++ "]"
  | mapping entries => "\x7b" ++ String.intercalate "," (entriesJson entries) ++ "\x7d"
  | pair first second => "[" ++ first.toJson ++ "," ++ second.toJson ++ "]"
  | set members => shownJson (set members)
  | foreign f => shownJson (foreign f)

/-- The JSON texts of the items of a list. -/
def itemsJson : List Value → List String
  | [] => []
  | v :: rest => v.toJson :: itemsJson rest

/-- The JSON texts of the entries of a mapping. -/
def entriesJson : List (Value × Value) → List String
  | [] => []
  | (k, v) :: rest => (shownJson k ++ ":" ++ v.toJson) :: entriesJson rest

end

end TreeLint.Value
