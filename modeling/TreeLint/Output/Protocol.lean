/-
The protocol of machine-readable reports.

A report is made of records, and each field of a record has to hold something: a text,
one of some words, an integer from a bound on.  Whether a document is what a field has to
hold, and how a document is written, is left to a `Protocol`; what this library asks of
it is `Protocol.Lawful`.  `Protocol.standard` is the one that programs use.
-/
import TreeLint.Output.Document
import TreeLint.Fault
namespace TreeLint

/-- What a field of a record has to hold. -/
inductive Demand where
  /-- A text. -/
  | text
  /-- A text, or no value. -/
  | textOrNothing
  /-- A list of texts. -/
  | texts
  /-- One of some words. -/
  | oneOf (words : List String)
  /-- An integer. -/
  | integer
  /-- An integer that is not below a bound. -/
  | atLeast (least : Int)
  /-- A time: a float that is not negative. -/
  | time
deriving DecidableEq, Repr

/-- A field of a record. -/
structure Field where
  /-- The name of the field. -/
  name : String
  /-- What the field has to hold. -/
  demand : Demand
  /-- What it should hold. -/
  value : Document
deriving Repr

/-- How records are checked and documents are written. -/
structure Protocol where
  /-- Whether a document is what a field has to hold. -/
  accepts : Demand → Document → Bool
  /-- The text of a document. -/
  write : Document → String

namespace Protocol

open Document (IsText)

/-- Whether a protocol checks what the fields ask for, any text, one of the words, and integers by
their bounds, and writes different documents differently.  Of times only zero is asked. -/
structure Lawful (p : Protocol) : Prop where
  text : ∀ s, IsText s → p.accepts .text (.string s)
  textOrNothing : ∀ s : Option String, (∀ t ∈ s, IsText t) →
    p.accepts .textOrNothing (.ofOption s)
  texts : ∀ ss : List String, (∀ s ∈ ss, IsText s) →
    p.accepts .texts (.array (ss.map .string))
  oneOf : ∀ words s, p.accepts (.oneOf words) (.string s) ↔ s ∈ words
  integer : ∀ n, p.accepts .integer (.int n)
  atLeast : ∀ least n, p.accepts (.atLeast least) (.int n) ↔ least ≤ n
  time : p.accepts .time (.float 0.0)
  write_injective : ∀ d d', d.IsPlain → d'.IsPlain → p.write d = p.write d' → d = d'

/-- The fields of a record, if each of them holds what it has to hold. -/
def fields (p : Protocol) (fs : List Field) : Except Fault (List (String × Document)) :=
  if fs.all (fun f => p.accepts f.demand f.value) then .ok (fs.map (fun f => (f.name, f.value)))
  else .error .outOfRange

/-- A record, if each of its fields holds what it has to hold. -/
def record (p : Protocol) (fs : List Field) : Except Fault Document :=
  (p.fields fs).map .object

/-! ### The protocol that programs use -/

/-- Whether a document is a text. -/
def isText : Document → Bool
  | .string s => s.toList.all (fun c => (Text.half? c).isNone)
  | _ => false

/-- Whether a document is what a field has to hold. -/
def check : Demand → Document → Bool
  | .text, d => isText d
  | .textOrNothing, .null => true
  | .textOrNothing, d => isText d
  | .texts, .array ds => ds.all isText
  | .oneOf words, .string s => words.contains s
  | .integer, .int _ => true
  | .atLeast least, .int n => decide (least ≤ n)
  | .time, .float x => !(x < 0.0)
  | _, _ => false

/-- The protocol that programs use. -/
def standard : Protocol := ⟨check, Document.write⟩

end Protocol

end TreeLint
