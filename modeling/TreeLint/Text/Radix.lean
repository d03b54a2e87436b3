/-
Numbers written in the digits and letters of a base.

The digits of a base up to sixteen are the ten decimal digits and the first six
letters, in either case.  `ofRadix?` reads a row of them, the most significant
first, and refuses one that is no digit of the base; no digit at all is zero.
-/
namespace TreeLint.Text

/-- The value of a digit or letter. -/
def radixValue? (c : Char) : Option Nat :=
  if '0' ≤ c ∧ c ≤ '9' then some (c.toNat - '0'.toNat)
  else if 'a' ≤ c ∧ c ≤ 'f' then some (c.toNat - 'a'.toNat + 10)
  else if 'A' ≤ c ∧ c ≤ 'F' then some (c.toNat - 'A'.toNat + 10)
  else none

/-- The value of a digit of a base. -/
def radixDigit? (base : Nat) (c : Char) : Option Nat :=
  (radixValue? c).filter (· < base)

/-- The number that a row of digits of a base writes. -/
def ofRadix? (base : Nat) (digits : List Char) : Option Nat :=
  digits.foldlM (fun n c => (radixDigit? base c).map (n * base + ·)) 0

@[simp] theorem ofRadix?_nil (base : Nat) : ofRadix? base [] = some 0 := rfl

theorem radixDigit?_lt {base d : Nat} {c : Char} (h : radixDigit? base c = some d) : d < base := by
  obtain ⟨_, hd⟩ := Option.filter_eq_some_iff.1 h
  simpa using hd

end TreeLint.Text
