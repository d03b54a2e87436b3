/-
Answers to questions that cannot always be decided.
-/
namespace TreeLint

/-- The answer to a question about incompletely resolved input. -/
inductive Answer where
  /-- It is so. -/
  | yes
  /-- It is not so. -/
  | no
  /-- The input does not tell. -/
  | unknown
deriving DecidableEq, Repr

namespace Answer

/-- The name of an answer. -/
def name : Answer → String
  | yes => "match"
  | no => "no_match"
  | unknown => "unknown"

/-- The answer to a decided question. -/
def ofBool (b : Bool) : Answer := if b then yes else no

@[simp] theorem ofBool_true : ofBool true = yes := rfl

@[simp] theorem ofBool_false : ofBool false = no := rfl

@[simp] theorem ofBool_eq_yes {b : Bool} : ofBool b = yes ↔ b = true := by
  cases b <;> decide

@[simp] theorem ofBool_ne_unknown (b : Bool) : ofBool b ≠ unknown := by
  cases b <;> decide

end Answer

end TreeLint
