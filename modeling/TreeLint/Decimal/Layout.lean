/-
Decimal numbers as text.

The digits of a float are those of `Dyadic.shortest`; how they are laid out is a
choice of the format that shows them.  `Layout` collects these choices and
`Layout.render` follows them.
-/
import TreeLint.Decimal.Shortest
namespace TreeLint.Decimal

/-- The choices of a format that writes floats. -/
structure Layout where
  /-- The least position of the decimal point that is written without an exponent. -/
  leastPoint : Int
  /-- The greatest position of the decimal point that is written without an exponent. -/
  greatestPoint : Int
  /-- Whether a single digit before an exponent still gets a point and a zero. -/
  fullMantissa : Bool
  /-- The sign written before an exponent that is not negative. -/
  plus : String
  /-- The least number of digits of an exponent. -/
  exponentWidth : Nat
  /-- The text of a value that is not a number. -/
  notANumber : String
  /-- The text of positive infinity, which follows a minus sign for the negative one. -/
  infinity : String

namespace Layout

/-- Zeros. -/
def zeros (n : Nat) : List Char := List.replicate n '0'

/-- Digits with the decimal point at a position, and at least one digit on either side of it. -/
def positional (digits : List Char) (point : Int) : List Char :=
  if point ≤ 0 then '0' :: '.' :: zeros (-point).toNat ++ digits
  else
    let n := point.toNat
    if digits.length ≤ n then digits ++ zeros (n - digits.length) ++ ['.', '0']
    else digits.take n ++ '.' :: digits.drop n

/-- One digit before the decimal point, the others after it, and the power of ten. -/
def scientific (layout : Layout) (digits : List Char) (point : Int) : List Char :=
  let mantissa := match digits with
    | [] => ['0']
    | [d] => if layout.fullMantissa then [d, '.', '0'] else [d]
    | d :: rest => d :: '.' :: rest
  let power := Nat.toDigits 10 (point - 1).natAbs
  let sign := if point - 1 < 0 then "-" else layout.plus
  mantissa ++ 'e' :: sign.toList ++ zeros (layout.exponentWidth - power.length) ++ power

/-- The magnitude of a finite float. -/
def magnitude (layout : Layout) (bits : UInt64) : List Char :=
  let d := (Dyadic.ofBits bits).shortest
  let digits := Nat.toDigits 10 d.digits
  if d.digits = 0 then positional digits 1
  else if layout.leastPoint ≤ d.point ∧ d.point ≤ layout.greatestPoint then
    positional digits d.point
  else layout.scientific digits d.point

/-- A float as the format writes it. -/
def render (layout : Layout) (x : Float) : String :=
  if x.isNaN then layout.notANumber
  else
    let sign := if x.toBits >>> 63 == 1 then "-" else ""
    if x.isInf then sign ++ layout.infinity
    else sign ++ String.ofList (layout.magnitude x.toBits)

end Layout

end TreeLint.Decimal
