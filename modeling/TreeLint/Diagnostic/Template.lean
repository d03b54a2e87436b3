/-
Message templates.

A template is a text with slots: a slot is an opening brace, one or more decimal
digits of any script and a closing brace, and stands for the argument with that
index.  `Template.pieces` reads a template from left to right into characters and
slots, and everything else about a template is a function of its pieces: which
indexes it uses, how many arguments it expects, whether it leaves out an index
below the greatest, and the message it makes of a list of arguments.  An index that
is written with too many digits cannot be read; `Template.tooLong?` finds it.
-/
import TreeLint.Text.DecimalDigit
namespace TreeLint

/-- A piece of a message template. -/
inductive TemplatePiece where
  /-- A character that stands for itself. -/
  | char (c : Char)
  /-- The place of the argument with an index, which is written with some number of digits. -/
  | slot (index width : Nat)
deriving DecidableEq, Repr

namespace Template

/-- The text that stands for an argument that was not given. -/
def missingArgument : String := "<missing>"

/-- The values of the decimal digits at the start of a text, and the text after them. -/
def spanDigits : List Char → List Nat × List Char
  | [] => ([], [])
  | c :: rest =>
    match Text.digitValue? c with
    | some d => (d :: (spanDigits rest).1, (spanDigits rest).2)
    | none => ([], c :: rest)

theorem length_spanDigits (s : List Char) :
    (spanDigits s).1.length + (spanDigits s).2.length = s.length := by
  induction s with
  | nil => rfl
  | cons c s ih =>
    unfold spanDigits
    split
    · simp only [List.length_cons]; omega
    · simp

/-- Reads the rest of a slot after its opening brace: the values of its digits and the text after
the slot. -/
def slotAfterBrace (s : List Char) : Option (List Nat × List Char) :=
  match spanDigits s with
  | (d :: ds, '\x7d' :: rest) => some (d :: ds, rest)
  | _ => none

theorem length_of_slotAfterBrace {s rest : List Char} {digits : List Nat}
    (h : slotAfterBrace s = some (digits, rest)) : rest.length < s.length := by
  have hl := length_spanDigits s
  unfold slotAfterBrace at h
  split at h
  · next d ds r heq =>
    cases h
    rw [heq] at hl
    simp only [List.length_cons] at hl
    omega
  · cases h

/-- The pieces of a template. -/
def pieces (s : List Char) : List TemplatePiece :=
  match s with
  | [] => []
  | c :: rest =>
    if c = '\x7b' then
      match h : slotAfterBrace rest with
      | some (digits, after) =>
        have := length_of_slotAfterBrace h
        .slot (Text.ofDigits digits) digits.length :: pieces after
      | none => .char c :: pieces rest
    else .char c :: pieces rest
termination_by s.length

/-- The index of a slot. -/
def slotIndex? : TemplatePiece → Option Nat
  | .char _ => none
  | .slot i _ => some i

/-- The number of digits of a slot with more digits than a limit. -/
def tooLongSlot? (limit : Nat) : TemplatePiece → Option Nat
  | .char _ => none
  | .slot _ width => if limit < width then some width else none

/-- The number of digits of the first slot with more digits than a limit, if there is one. -/
def tooLong? (limit : Nat) (ps : List TemplatePiece) : Option Nat :=
  ps.findSome? (tooLongSlot? limit)

/-- Puts an index into an ascending list, unless it is there. -/
def insertIndex (i : Nat) : List Nat → List Nat
  | [] => [i]
  | j :: rest =>
    if i < j then i :: j :: rest else if i = j then j :: rest else j :: insertIndex i rest

/-- The indexes of the slots among some pieces, ascending and each once. -/
def indexes (ps : List TemplatePiece) : List Nat :=
  (ps.filterMap slotIndex?).foldr insertIndex []

/-- The number of arguments that some pieces expect: one more than the greatest index. -/
def arity (ps : List TemplatePiece) : Nat :=
  match (indexes ps).getLast? with
  | some i => i + 1
  | none => 0

/-- Whether a list counts upwards from a number. -/
def countsFrom : Nat → List Nat → Bool
  | _, [] => true
  | n, i :: rest => i == n && countsFrom (n + 1) rest

/-- Whether every index below the number of expected arguments is used. -/
def isWellFormed (ps : List TemplatePiece) : Bool :=
  countsFrom 0 (indexes ps)

end Template

end TreeLint
