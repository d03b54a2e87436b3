/-
Integers that a double represents.

A double has 53 significant bits.  An integer is rounded to the nearest double,
a tie going to the even one, and the rounding overflows when it reaches
`2 ^ 1024`.
-/
import TreeLint.Model.Answer
namespace TreeLint

namespace Double

/-- Divides by a power of two and rounds to the nearest, a tie going to the even quotient. -/
def shiftRounded (n shift : Nat) : Nat :=
  let quotient := n / Nat.pow 2 shift
  let rest := n % Nat.pow 2 shift
  if Nat.pow 2 shift < 2 * rest || (2 * rest == Nat.pow 2 shift && quotient % 2 == 1) then
    quotient + 1
  else quotient

/-- A natural number rounded to 53 significant bits. -/
def roundNat (n : Nat) : Nat :=
  let shift := n.log2 - 52
  shiftRounded n shift * Nat.pow 2 shift

/-- The double nearest to an integer, as an integer; nothing if it overflows. -/
def ofInt? (v : Int) : Option Int :=
  let magnitude := roundNat v.natAbs
  if magnitude < Nat.pow 2 1024 then some (if v < 0 then -(magnitude : Int) else magnitude)
  else none

/-- Whether an integer is a double.  A value that the resolver could not represent and one that
overflows are not decided. -/
def represents : Option Int → Answer
  | none => .unknown
  | some v =>
    match ofInt? v with
    | none => .unknown
    | some d => .ofBool (d == v)

end Double

end TreeLint
