/-
The fields of values.

A mapping whose keys are texts is a record: its fields are looked up by name, and
one that is missing has a default.  A field that should hold a text, a number or
a list is read as one whatever it holds.
-/
import TreeLint.Number
import TreeLint.Value
namespace TreeLint.Value

/-- The entries of a mapping; nothing else has any. -/
def entries : Value → List (Value × Value)
  | mapping entries => entries
  | _ => []

/-- The items of a list; nothing else has any. -/
def items : Value → List Value
  | list items => items
  | _ => []

/-- The field of a name. -/
def field? (v : Value) (name : String) : Option Value :=
  v.entries.findSome? (fun e => match e.1 with
    | string key => if key == name then some e.2 else none
    | _ => none)

/-- The field of a name, or no value. -/
def field (v : Value) (name : String) : Value := (v.field? name).getD null

/-- The items of the list in a field. -/
def itemsOf (v : Value) (name : String) : List Value := (v.field name).items

section

variable [Machine]

/-- A value as a text; what has none is read as the empty one. -/
def asText (v : Value) : String := v.text.toOption.getD ""

/-- The texts of the items of the list in a field. -/
def textsOf (v : Value) (name : String) : List String := (v.itemsOf name).map asText

/-- A value as a text, if there is one. -/
def text? : Value → Option String
  | null => none
  | v => some v.asText

/-- The text in a field, if there is one. -/
def textOf? (v : Value) (name : String) : Option String := (v.field name).text?

/-- The text in a field, or a default. -/
def textOf (v : Value) (name : String) (default : String := "") : String :=
  (v.textOf? name).getD default

/-- The entries of a mapping, with their keys as texts. -/
def named (v : Value) : List (String × Value) := v.entries.map (fun e => (e.1.asText, e.2))

end

/-- The truth value in a field, or a default. -/
def flagOf (v : Value) (name : String) (default : Bool := false) : Bool :=
  ((v.field? name).map isTruthy).getD default

/-- A value as an integer: a float is cut at its point, and what is no number is zero. -/
def toInt : Value → Int
  | int n => n
  | bool b => if b then 1 else 0
  | float x => if x < 0 then -((-x).toUInt64.toNat : Int) else (x.toUInt64.toNat : Int)
  | string s => s.toInt?.getD 0
  | _ => 0

/-- The integer in a field, or a default. -/
def intOf (v : Value) (name : String) (default : Int) : Int :=
  ((v.field? name).map toInt).getD default

/-- A value as a number; what is none is zero. -/
def toNumber : Value → Number
  | float x => .float x
  | v => .int v.toInt

/-- A record of some fields. -/
def ofFields (fields : List (String × Value)) : Value :=
  mapping (fields.map (fun f => (string f.1, f.2)))

/-- A list of texts. -/
def ofTexts (texts : List String) : Value := list (texts.map string)

/-- A text, or no value. -/
def ofText? : Option String → Value
  | some s => string s
  | none => null

theorem field?_ofFields_cons (name : String) (v : Value) (fields : List (String × Value)) :
    (ofFields ((name, v) :: fields)).field? name = some v := by
  simp [ofFields, field?, entries]

end TreeLint.Value
