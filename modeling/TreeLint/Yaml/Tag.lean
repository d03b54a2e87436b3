/-
The kinds of nodes, and the kind of a plain scalar by its text.

`Tag.ofText` is the table of the forms that plain scalars may have: truth
values in three spellings of six words, integers in four bases and in groups of
sixty, numbers with a point, dates, and texts for all others.
-/
import TreeLint.Decimal.Numeral
import TreeLint.Yaml.Timestamp
namespace TreeLint.Yaml

/-- The kind of a node. -/
inductive Tag where
  | null
  | bool
  | int
  | float
  | timestamp
  /-- A key whose mapping is merged into the one around it. -/
  | merge
  /-- A key without a name. -/
  | nameless
  | string
  | list
  | mapping
  /-- Bytes. -/
  | binary
  /-- A mapping that stands for its keys. -/
  | set
  /-- A list of mappings of one entry each, in an order that matters. -/
  | orderedMapping
  /-- A list of mappings of one entry each. -/
  | pairs
  /-- A kind that has no values here. -/
  | other (name : String)
deriving DecidableEq, Repr

namespace Tag

/-- What the names of all common tags start with. -/
def common : String := "tag:yaml.org,2002:"

/-- The names of the common tags. -/
def names : List (String × Tag) := [
  ("null", null), ("bool", bool), ("int", int), ("float", float), ("timestamp", timestamp),
  ("merge", merge), ("value", nameless), ("str", string), ("seq", list), ("map", mapping),
  ("binary", binary), ("set", set), ("omap", orderedMapping), ("pairs", pairs)]

/-- The kind with a full name. -/
def ofName (name : String) : Tag :=
  match names.find? (fun n => common ++ n.1 == name) with
  | some n => n.2
  | none => other name

/-! ### Forms of scalars -/

/-- The words for no value. -/
def nullWords : List String := ["", "~", "null", "Null", "NULL"]

/-- The words for truth. -/
def trueWords : List String :=
  ["yes", "Yes", "YES", "true", "True", "TRUE", "on", "On", "ON"]

/-- The words for falsehood. -/
def falseWords : List String :=
  ["no", "No", "NO", "false", "False", "FALSE", "off", "Off", "OFF"]

/-- Whether a character is a digit or the mark between groups of digits. -/
def isGrouped (c : Char) : Bool := c.isDigit || c == '_'

/-- Whether a row is not empty and its characters belong to a class. -/
def isRow (p : Char → Bool) (s : List Char) : Bool := !s.isEmpty && s.all p

/-- Whether a character belongs to a base of two, eight or sixteen. -/
def isDigitOf (base : Nat) (c : Char) : Bool := (Text.radixDigit? base c).isSome || c == '_'

/-- Whether a text is a number below sixty of one or two digits. -/
def isSixtieth (s : List Char) : Bool :=
  match s with
  | [b] => b.isDigit
  | [a, b] => '0' ≤ a && a ≤ '5' && b.isDigit
  | _ => false

/-- Whether a text is a row of digits and marks that starts with a digit. -/
def isGroupedRow (s : List Char) : Bool := s.head?.any Char.isDigit && s.all isGrouped

/-- Whether a text is a whole number with the number of a sixtieth behind it, once or more. -/
def isSixties (s : List Char) : Bool :=
  match s.splitOn ':' with
  | first :: second :: rest =>
    isGroupedRow first && (second :: rest).all isSixtieth
  | _ => false

/-- Whether a text is an integer. -/
def isInt (s : List Char) : Bool :=
  let s := Decimal.Numeral.unsigned s
  match s with
  | '0' :: 'b' :: rest => isRow (isDigitOf 2) rest
  | '0' :: 'x' :: rest => isRow (isDigitOf 16) rest
  | '0' :: rest => rest.all (isDigitOf 8)
  | _ => (isGroupedRow s || isSixties s)

/-- Whether a text is an exponent, or nothing: a letter, a sign and digits. -/
def isExponent : List Char → Bool
  | [] => true
  | e :: sign :: rest =>
    (e == 'e' || e == 'E') && (sign == '+' || sign == '-') && isRow Char.isDigit rest
  | _ => false

/-- Whether a text is the part of a number behind its point: digits, marks and an exponent. -/
def isFraction (s : List Char) : Bool := isExponent (s.dropWhile isGrouped)

/-- The words for an infinite number. -/
def infiniteWords : List String := [".inf", ".Inf", ".INF"]

/-- The words for what is no number. -/
def notNumberWords : List String := [".nan", ".NaN", ".NAN"]

/-- Whether a text is a number with a point. -/
def isFloat (s : List Char) : Bool :=
  let number := Decimal.Numeral.unsigned s
  let whole := number.takeWhile (· != '.')
  let behind := number.drop (whole.length + 1)
  infiniteWords.contains (String.ofList number) || notNumberWords.contains (String.ofList s) ||
    (number.contains '.' &&
      ((isGroupedRow whole && isFraction behind) ||
        (s.head? == some '.' && behind.head?.any Char.isDigit && isFraction behind) ||
        (isSixties whole && behind.all isGrouped)))

/-- The kind of a plain scalar. -/
def ofText (text : String) : Tag :=
  let s := text.toList
  if trueWords.contains text || falseWords.contains text then bool
  else if isFloat s then float
  else if isInt s then int
  else if text == "<<" then merge
  else if nullWords.contains text then null
  else if Timestamp.isForm s then timestamp
  else if text == "=" then nameless
  else string

/-- The kind of a scalar by its text, which may have been quoted or stand in a block: a line end
behind the text does not count. -/
def ofMarked (text : String) : Tag :=
  let s := text.toList
  if 1 < s.length && s.getLast? == some '\n' then ofText (String.ofList s.dropLast)
  else ofText text

end Tag

end TreeLint.Yaml
