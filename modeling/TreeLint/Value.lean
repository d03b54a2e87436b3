/-
Plain data: the arguments of findings, the options of a configuration and the
content of a configuration file.

A value has two texts.  `Value.text` is the one that stands by itself in a
message: a string is its own text.  `Value.quoted` is the one that stands inside
a list, a mapping or after a colon: there strings are quoted.  The two differ on
strings and foreign values only.

Not every value has a text.  An integer may have too many digits, values may stand
within values too many levels deep for the machine, and a foreign value decides for
itself.  All texts of values are made by `Value.quotedWithin`, which gives the text or
the reason why there is none; `Value.exists_quotedWithin_iff` says which values have one.
-/
import TreeLint.Decimal.Layout
import TreeLint.Text.Quoted
namespace TreeLint

/-- The limits of the machine that a program runs on. -/
class Machine where
  /-- The number of indexes from which on a list of them does not fit into the memory. -/
  listLimit : Nat
  /-- The number of levels of values within values, besides the first two, of which a text can be
  made. -/
  nesting : Nat
  /-- The number of nodes of a document that may stand within one another when it is read. -/
  documentDepth : Nat

/-- Why a text cannot be made. -/
inductive TextFault where
  /-- An integer has too many digits to be written in decimal. -/
  | longInteger
  /-- Values stand within values too many levels deep. -/
  | tooDeep
  /-- What should be shown fails, with a class and a message. -/
  | refused (className message : String)
  /-- What should be shown fails with a fault that cannot be shown either. -/
  | untold (className : String) (cause : TextFault)
deriving DecidableEq, Repr

/-- A value that is not made of others and has texts of its own, such as a date. -/
structure Foreign where
  /-- The text of the value by itself. -/
  text : Except TextFault String
  /-- The text of the value inside other values. -/
  quoted : Except TextFault String
  /-- What equal values have in common. -/
  key : String
  /-- Whether the value counts as present. -/
  present : Bool := true
deriving Repr

/-- A foreign value with one text, inside other values as by itself. -/
def Foreign.ofText (text : String) (present : Bool := true) : Foreign :=
  ⟨.ok text, .ok text, text, present⟩

/-- A value of plain data. -/
inductive Value where
  /-- No value. -/
  | null
  /-- A truth value. -/
  | bool (b : Bool)
  /-- An integer of any size. -/
  | int (n : Int)
  /-- A binary floating-point number. -/
  | float (x : Float)
  /-- A text. -/
  | string (s : String)
  /-- A list of values. -/
  | list (items : List Value)
  /-- A mapping, its entries in the order in which their keys came. -/
  | mapping (entries : List (Value × Value))
  /-- A set, its members in the order in which they are shown. -/
  | set (members : List Value)
  /-- Two values that belong together. -/
  | pair (first second : Value)
  /-- A value with texts of its own. -/
  | foreign (f : Foreign)
deriving Repr, Inhabited

namespace Value

/-- Floats in messages: positional from `0.0001` to below `10 ^ 16`, otherwise with a signed
exponent of at least two digits. -/
def floatLayout : Decimal.Layout where
  leastPoint := -3
  greatestPoint := 16
  fullMantissa := false
  plus := "+"
  exponentWidth := 2
  notANumber := "nan"
  infinity := "inf"

/-! ### Texts -/

/-- The greatest number of digits that an integer may have in a text. -/
def digitLimit : Nat := 4300

/-- The least number with too many digits for a text. -/
def leastLong : Nat := Nat.pow 10 digitLimit

/-- The text of an integer. -/
def decimal (n : Int) : Except TextFault String :=
  if n.natAbs < leastLong then .ok (toString n) else .error .longInteger

/-- Several texts as a row between brackets. -/
def row (opening closing : String) (texts : List String) : String :=
  opening ++ String.intercalate ", " texts ++ closing

mutual

/-- The text of a value inside other values, with a number of levels at most that it may use. -/
def quotedWithin : Nat → Value → Except TextFault String
  | 0, _ => .error .tooDeep
  | _ + 1, null => .ok "None"
  | _ + 1, bool b => .ok (if b then "True" else "False")
  | _ + 1, int n => decimal n
  | _ + 1, float x => .ok (floatLayout.render x)
  | _ + 1, string s => .ok (Text.quoted s)
  | levels + 1, list items => return row "[" "]" (← itemsWithin levels items)
  | levels + 1, mapping entries => return row "\x7b" "\x7d" (← entriesWithin levels entries)
  | _ + 1, set [] => .ok "set()"
  | levels + 1, set members => return row "\x7b" "\x7d" (← itemsWithin levels members)
  | levels + 1, pair first second => do
    let first ← quotedWithin levels first
    let second ← quotedWithin levels second
    return row "(" ")" [first, second]
  | _ + 1, foreign f => f.quoted

/-- The texts of the items of a list. -/
def itemsWithin : Nat → List Value → Except TextFault (List String)
  | _, [] => .ok []
  | levels, v :: rest => do
    let first ← quotedWithin levels v
    let others ← itemsWithin levels rest
    return first :: others

/-- The texts of the entries of a mapping. -/
def entriesWithin : Nat → List (Value × Value) → Except TextFault (List String)
  | _, [] => .ok []
  | levels, (k, v) :: rest => do
    let key ← quotedWithin levels k
    let value ← quotedWithin levels v
    let others ← entriesWithin levels rest
    return (key ++ ": " ++ value) :: others

end

variable [Machine]

/-- The text of a value inside other values. -/
def quoted (v : Value) : Except TextFault String := quotedWithin (Machine.nesting + 2) v

/-- The texts of values that stand in a row. -/
def quotedItems (vs : List Value) : Except TextFault (List String) :=
  itemsWithin (Machine.nesting + 1) vs

/-- The text of a value by itself. -/
def text : Value → Except TextFault String
  | string s => .ok s
  | foreign f => f.text
  | v => v.quoted

/-- The texts of some values, of each by itself, up to the first that has none. -/
def texts : List Value → Except TextFault (List String)
  | [] => .ok []
  | v :: rest => do
    let first ← v.text
    let others ← texts rest
    return first :: others

@[simp] theorem text_string (s : String) : (string s).text = .ok s := rfl

/-- Whether a value counts as present: zero and what is empty do not. -/
def isTruthy : Value → Bool
  | null => false
  | bool b => b
  | int n => n != 0
  | float x => !(x == 0.0)
  | string s => s != ""
  | list items => !items.isEmpty
  | mapping entries => !entries.isEmpty
  | set members => !members.isEmpty
  | pair .. => true
  | foreign f => f.present

/-- The name of the kind of a value. -/
def kindName : Value → String
  | .null => "NoneType"
  | .bool _ => "bool"
  | .int _ => "int"
  | .float _ => "float"
  | .string _ => "str"
  | .list _ => "list"
  | .mapping _ => "dict"
  | .set _ => "set"
  | .pair .. => "tuple"
  | .foreign _ => "object"

/-- Whether a float is exactly an integer. -/
def floatIsInt (x : Float) (n : Int) : Bool :=
  if x.isNaN || x.isInf then false
  else
    let d := Decimal.Dyadic.ofBits x.toBits
    d.numerator == n.natAbs * d.denominator &&
      (n == 0 || (decide (n < 0) == (x.toBits >>> 63 == 1)))

/-- The integer that a number or a truth value stands for, when it is one. -/
def integer? : Value → Option Int
  | int n => some n
  | bool b => some (if b then 1 else 0)
  | _ => none

/-- A number or a truth value as a quotient; infinity is one over zero. -/
def quotient? : Value → Option (Int × Nat)
  | int n => some (n, 1)
  | bool b => some (if b then 1 else 0, 1)
  | float x =>
    if x.isNaN then none
    else
      let sign : Int := if x.toBits >>> 63 == 1 then -1 else 1
      if x.isInf then some (sign, 0)
      else
        let d := Decimal.Dyadic.ofBits x.toBits
        some (sign * d.numerator, d.denominator)
  | _ => none

/-- Whether two scalars are the same key of a mapping: numbers are compared by what they stand
for, so one, one point zero and truth are one key. -/
def sameKey : Value → Value → Bool
  | null, null => true
  | string s, string t => s == t
  | foreign f, foreign g => f.key == g.key
  | float x, float y => x == y || (x.isNaN && x.toBits == y.toBits)
  | float x, w => match w.integer? with
    | some n => floatIsInt x n
    | none => false
  | v, float y => match v.integer? with
    | some m => floatIsInt y m
    | none => false
  | v, w => match v.integer?, w.integer? with
    | some m, some n => m == n
    | _, _ => false

/-- Entries with a value written for a key: a key that is there keeps its place. -/
def insert {α : Type} (key : Value) (value : α) : List (Value × α) → List (Value × α)
  | [] => [(key, value)]
  | (k, v) :: rest =>
    if sameKey k key then (k, value) :: rest else (k, v) :: insert key value rest

end Value

end TreeLint
