/-
Numbers that are added up: integers of any size, and floats.

A sum of integers is exact.  A sum with a float is a float, so an integer in it has
to have one: one that is too large has none.
-/
import TreeLint.Decimal.Nearest
namespace TreeLint

/-- A number. -/
inductive Number where
  /-- An integer of any size. -/
  | int (n : Int)
  /-- A float. -/
  | float (x : Float)
deriving Repr, Inhabited

namespace Number

/-- The float nearest to a number, unless the number is an integer that is too large. -/
def toFloat? : Number → Option Float
  | float x => some x
  | int n =>
    let x := Decimal.ofInt n
    if x.isInf then none else some x

/-- The sum of two numbers. -/
def add? : Number → Number → Option Number
  | int m, int n => some (int (m + n))
  | a, b => do return float ((← a.toFloat?) + (← b.toFloat?))

/-- The sum of some numbers. -/
def sum? (ns : List Number) : Option Number := ns.foldlM add? (int 0)

@[simp] theorem add?_int (m n : Int) : add? (int m) (int n) = some (int (m + n)) := rfl

@[simp] theorem add?_float (x y : Float) : add? (float x) (float y) = some (float (x + y)) := rfl

end Number

end TreeLint
