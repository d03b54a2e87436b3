/-
Documents of machine-readable reports.

A document is written with one item a line and an indent of two blanks for each
level.  In texts the quote, the backslash, control characters and halves of pairs
are escaped, and all other characters stand for themselves.
-/
import TreeLint.Decimal.Layout
import TreeLint.Text.Quoted
namespace TreeLint

/-- A machine-readable document. -/
inductive Document where
  /-- No value. -/
  | null
  /-- An integer. -/
  | int (n : Int)
  /-- A floating-point number. -/
  | float (x : Float)
  /-- A text. -/
  | string (s : String)
  /-- A list. -/
  | array (items : List Document)
  /-- Named fields. -/
  | object (fields : List (String × Document))
deriving Repr, Inhabited

namespace Document

/-- Floats in documents: positional from `0.00001` to below `10 ^ 16`, otherwise with a signed
exponent as short as possible. -/
def floatLayout : Decimal.Layout where
  leastPoint := -4
  greatestPoint := 16
  fullMantissa := false
  plus := "+"
  exponentWidth := 1
  notANumber := "null"
  infinity := "null"

/-- A float in a document; one that is not finite is no value. -/
def floatText (x : Float) : String :=
  if x.isInf then "null" else floatLayout.render x

/-- One character of a text in a document. -/
def stringChar (c : Char) : String :=
  if c = '"' then "\\\""
  else if c = '\\' then "\\\\"
  else if c = '\x08' then "\\b"
  else if c = '\t' then "\\t"
  else if c = '\n' then "\\n"
  else if c = '\x0c' then "\\f"
  else if c = '\r' then "\\r"
  else if c.toNat < 0x20 || (Text.half? c).isSome then
    "\\u" ++ Text.paddedHex false 4 (Text.codeOf c)
  else c.toString

/-- A text in a document. -/
def stringText (s : String) : String :=
  "\"" ++ String.join (s.toList.map stringChar) ++ "\""

/-- The start of a line at a level. -/
def newLine (level : Nat) : String := "\n" ++ "".pushn ' ' (2 * level)

/-- Items, each on a line of its own, between brackets. -/
def bracketed (level : Nat) (opening closing : String) (items : List String) : String :=
  if items.isEmpty then opening ++ closing
  else
    opening ++ String.intercalate "," (items.map (newLine (level + 1) ++ ·)) ++ newLine level ++
      closing

mutual

/-- The text of a document at a level of indentation. -/
def writeAt (level : Nat) : Document → String
  | null => "null"
  | int n => toString n
  | float x => floatText x
  | string s => stringText s
  | array items => bracketed level "[" "]" (writeItems (level + 1) items)
  | object fields => bracketed level "\x7b" "\x7d" (writeFields (level + 1) fields)

/-- The texts of the items of a list. -/
def writeItems (level : Nat) : List Document → List String
  | [] => []
  | d :: rest => d.writeAt level :: writeItems level rest

/-- The texts of named fields. -/
def writeFields (level : Nat) : List (String × Document) → List String
  | [] => []
  | (name, d) :: rest => (stringText name ++ ": " ++ d.writeAt level) :: writeFields level rest

end

/-- The text of a document. -/
def write (d : Document) : String := d.writeAt 0

/-- Whether a text is made of characters only, so that no half of a pair stands in it. -/
def IsText (s : String) : Prop := ∀ c ∈ s.toList, Text.half? c = none

instance (s : String) : Decidable (IsText s) := List.decidableBAll _ s.toList

/-- Whether a document is made of texts and integers, and of no float but zero. -/
inductive IsPlain : Document → Prop where
  | null : IsPlain null
  | int (n : Int) : IsPlain (int n)
  | zero : IsPlain (float 0.0)
  | string {s : String} (htext : IsText s) : IsPlain (string s)
  | array {items : List Document} (hitems : ∀ d ∈ items, IsPlain d) : IsPlain (array items)
  | object {fields : List (String × Document)} (hnames : ∀ e ∈ fields, IsText e.1)
    (hvalues : ∀ e ∈ fields, IsPlain e.2) : IsPlain (object fields)

/-- A text, or no value. -/
def ofOption : Option String → Document
  | some s => string s
  | none => null

end Document

end TreeLint
