/-
The shortest decimal that stands for a binary number.

A finite binary number `m · 2 ^ q` is the nearest one to every real of an
interval around it: the interval ends half-way to its two neighbours, and the
ends belong to it when `m` is even.  `Dyadic.shortest` looks for a decimal of the
fewest digits in that interval, and among those for the nearest to the number.
With `n` digits only the two neighbours of the number on the grid of `n` digits
can be the answer, so the search tries those for `n = 1, 2, …, 17`.
-/
namespace TreeLint.Decimal

/-- A finite, non-negative binary number `significand · 2 ^ exponent`. -/
structure Dyadic where
  /-- The integer factor. -/
  significand : Nat
  /-- The power of two. -/
  exponent : Int
  /-- Whether the number below is half as far away as the number above. -/
  closeBelow : Bool
deriving Repr, DecidableEq

/-- The decimal number `digits · 10 ^ scale`. -/
structure Digits where
  /-- The integer factor. -/
  digits : Nat
  /-- The power of ten. -/
  scale : Int
deriving Repr, DecidableEq

namespace Dyadic

/-- The magnitude of a finite float, from its bits. -/
def ofBits (bits : UInt64) : Dyadic :=
  let field := ((bits >>> 52) &&& 0x7FF).toNat
  let fraction := (bits &&& 0xFFFFFFFFFFFFF).toNat
  if field = 0 then ⟨fraction, -1074, false⟩
  else ⟨Nat.pow 2 52 + fraction, (field : Int) - 1075, fraction == 0 && 1 < field⟩

/-- The number as a quotient of integers, its numerator. -/
def numerator (x : Dyadic) : Nat := x.significand * Nat.pow 2 x.exponent.toNat

/-- The number as a quotient of integers, its denominator. -/
def denominator (x : Dyadic) : Nat := Nat.pow 2 (-x.exponent).toNat

/-- Compares a decimal with the quarter-step `quarters · 2 ^ (exponent - 2)` of the grid of a
number. -/
def compareQuarters (x : Dyadic) (d : Digits) (quarters : Nat) : Ordering :=
  compare (d.digits * Nat.pow 10 d.scale.toNat * (4 * x.denominator))
    (quarters * Nat.pow 2 x.exponent.toNat * Nat.pow 10 (-d.scale).toNat)

/-- Whether the number is the nearest binary number to a decimal, a tie going to the even one. -/
def isNearestTo (x : Dyadic) (d : Digits) : Bool :=
  let below := x.compareQuarters d (4 * x.significand - if x.closeBelow then 1 else 2)
  let above := x.compareQuarters d (4 * x.significand + 2)
  let even := x.significand % 2 == 0
  (below == .gt || (even && below == .eq)) && (above == .lt || (even && above == .eq))

/-- The position of the decimal point of a positive number: the `k` with
`10 ^ (k - 1) ≤ x < 10 ^ k`. -/
def point (x : Dyadic) : Int :=
  let num := x.numerator
  let den := x.denominator
  if den ≤ num then ((Nat.toDigits 10 (num / den)).length : Int)
  else 1 - ((Nat.toDigits 10 ((den - 1) / num)).length : Int)

/-- The greatest multiple of `10 ^ scale` that is not above the number. -/
def gridBelow (x : Dyadic) (scale : Int) : Nat :=
  x.numerator * Nat.pow 10 (-scale).toNat / (x.denominator * Nat.pow 10 scale.toNat)

/-- The better of the two neighbours of the number on a decimal grid, if one of them reads back. -/
def onGrid (x : Dyadic) (scale : Int) : Option Digits :=
  let low : Digits := ⟨x.gridBelow scale, scale⟩
  let high : Digits := ⟨x.gridBelow scale + 1, scale⟩
  match x.isNearestTo low, x.isNearestTo high with
  | true, true =>
    match compare (2 * x.numerator * Nat.pow 10 (-scale).toNat)
        ((2 * low.digits + 1) * x.denominator * Nat.pow 10 scale.toNat) with
    | .lt => some low
    | .gt => some high
    | .eq => some (if low.digits % 2 = 0 then low else high)
  | true, false => some low
  | false, true => some high
  | false, false => none

end Dyadic

/-- Moves trailing zeros of the digits into the scale. -/
def Digits.strip (d : Digits) : Digits :=
  if h : d.digits ≠ 0 ∧ d.digits % 10 = 0 then
    Digits.strip ⟨d.digits / 10, d.scale + 1⟩
  else d
termination_by d.digits
decreasing_by have := h.1; omega

/-- The position of the decimal point of a decimal number. -/
def Digits.point (d : Digits) : Int :=
  ((Nat.toDigits 10 d.digits).length : Int) + d.scale

namespace Dyadic

/-- The decimal of the fewest digits that reads back as the number, the nearest one of those.
Should seventeen digits not be enough, the exact value stands in. -/
def shortest (x : Dyadic) : Digits :=
  if x.significand = 0 then ⟨0, 0⟩
  else
    let k := x.point
    match (List.range 17).findSome? (fun n => x.onGrid (k - (n + 1 : Nat))) with
    | some d => d.strip
    | none => (⟨x.significand * Nat.pow 2 x.exponent.toNat * Nat.pow 5 (-x.exponent).toNat,
        min x.exponent 0⟩ : Digits).strip

/-- A decimal found on a grid reads back as the number. -/
theorem isNearestTo_of_onGrid {x : Dyadic} {scale : Int} {d : Digits}
    (h : x.onGrid scale = some d) : x.isNearestTo d = true := by
  unfold onGrid at h
  simp only at h
  split at h
  · next hl hh =>
    split at h
    · cases h; exact hl
    · cases h; exact hh
    · split at h <;> cases h
      · exact hl
      · exact hh
  · next hl hh => cases h; exact hl
  · next hl hh => cases h; exact hh
  · cases h

end Dyadic

end TreeLint.Decimal
