/-
The float nearest to a number.

The number is a quotient of two integers, and so is every decimal.  Its first 53
bits are the significand of the float, or fewer if the float would be too small
for an exponent; what is left decides how the last bit is rounded, a half going to
the even neighbour.  Decimals that are out of reach are told by their size alone,
so an exponent may be as large as it likes.
-/
namespace TreeLint.Decimal

/-- The number of bits of a significand. -/
def significandBits : Nat := 53

/-- The exponent of the smallest floats. -/
def leastExponent : Int := -1074

/-- The power of two that is not above a quotient of positive integers, while the next one is. -/
def floorLog (num den : Nat) : Int :=
  let k : Int := (num.log2 : Int) - (den.log2 : Int)
  if num * Nat.pow 2 (-k).toNat < den * Nat.pow 2 k.toNat then k - 1 else k

/-- A quotient rounded to an integer, a half to the even one. -/
def roundQuotient (num den : Nat) : Nat :=
  let q := num / den
  let twice := 2 * (num % den)
  if den < twice || (twice == den && q % 2 == 1) then q + 1 else q

/-- The exponent of the float nearest to a quotient of positive integers. -/
def exponentFor (num den : Nat) : Int :=
  max (floorLog num den - (significandBits - 1 : Nat)) leastExponent

/-- The significand of the float nearest to a quotient, for an exponent. -/
def significandFor (num den : Nat) (exponent : Int) : Nat :=
  roundQuotient (num * Nat.pow 2 (-exponent).toNat) (den * Nat.pow 2 exponent.toNat)

/-- The bits of the float `significand · 2 ^ exponent`; one that is too large is infinite. -/
def packBits (significand : Nat) (exponent : Int) : Nat :=
  let hidden := Nat.pow 2 (significandBits - 1)
  let infinite := 0x7FF * hidden
  if significand < hidden then significand
  else min infinite ((exponent - leastExponent).toNat * hidden + significand)

/-- The float nearest to a quotient of integers that is not negative. -/
def ofQuotient (num den : Nat) : Float :=
  if num = 0 then 0.0
  else
    let exponent := exponentFor num den
    Float.ofBits (packBits (significandFor num den exponent) exponent).toUInt64

/-- The float nearest to an integer. -/
def ofInt (n : Int) : Float :=
  if n < 0 then -(ofQuotient n.natAbs 1) else ofQuotient n.natAbs 1

/-- No positive float is as large as ten to this power. -/
def overflowPower : Int := 309

/-- Every positive decimal up to ten to this power is nearest to zero. -/
def underflowPower : Int := -324

/-- The float nearest to a decimal without sign. -/
def nearest (digits : Nat) (power : Int) : Float :=
  let places : Int := (toString digits).length
  if digits = 0 || places + power ≤ underflowPower then 0.0
  else if overflowPower < places + power then 1.0 / 0.0
  else ofQuotient (digits * Nat.pow 10 power.toNat) (Nat.pow 10 (-power).toNat)

/-- The float nearest to a decimal with the sign before it. -/
def nearestSigned (negative : Bool) (digits : Nat) (power : Int) : Float :=
  if negative then -(nearest digits power) else nearest digits power

/-- A quotient is rounded to the integer below it or the next one. -/
theorem roundQuotient_eq_or (num den : Nat) :
    roundQuotient num den = num / den ∨ roundQuotient num den = num / den + 1 := by
  simp only [roundQuotient]
  split
  · exact .inr rfl
  · exact .inl rfl

end TreeLint.Decimal
