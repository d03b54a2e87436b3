/-
Which integers are doubles.

A significand has 53 bits.  As long as the exponent is not bounded, the natural
numbers among the doubles are those whose one bits fit into 53 places: `HasBits 53`.
An integer is rounded to the nearest of them; where two are as near, the one whose
53rd bit is zero is taken, that is the one with one bit less: `IsRounding`.  Rounding by
division is this rounding and no other (`isRounding_iff`).

What is said about the answers uses nothing else about it.  A number stays
as it is exactly if it fits (`IsRounding.eq_self_iff`).  The largest double is
`2 ^ 1024 - 2 ^ 971`, and the rounding overflows from the middle between it and
`2 ^ 1024` on: the middle itself is a tie, and the largest double has all of its 53
bits set (`IsRounding.overflows_iff`).
-/
import Mathlib.Data.Nat.Factorization.Basic
import TreeLint.Model.Representable
namespace TreeLint

namespace Double

/-! ### Rounding to 53 bits -/

/-- Whether the one bits of a number fit into some places next to each other. -/
def HasBits (bits n : Nat) : Prop := ∃ m k, m < 2 ^ bits ∧ n = m * 2 ^ k

/-- The nearest number of 53 bits.  Of two that are as near it is the one whose last bit is
zero. -/
structure IsRounding (n d : Nat) : Prop where
  hasBits : HasBits 53 d
  nearest : ∀ e, HasBits 53 e → ((n : Int) - d).natAbs ≤ ((n : Int) - e).natAbs
  even : ∀ e, HasBits 53 e → e ≠ d → ((n : Int) - e).natAbs = ((n : Int) - d).natAbs →
    HasBits 52 d

/-- A significand may as well be the power of two behind the largest one. -/
lemma hasBits_of_le {bits m : Nat} (h : m ≤ 2 ^ bits) (hbits : 0 < bits) (k : Nat) :
    HasBits bits (m * 2 ^ k) := by
  rcases Nat.lt_or_eq_of_le h with hlt | rfl
  · exact ⟨m, k, hlt, rfl⟩
  · exact ⟨1, bits + k, Nat.one_lt_two_pow (Nat.ne_of_gt hbits), by rw [Nat.pow_add, Nat.one_mul]⟩

/-- From `2 ^ (bits + s)` on, the numbers of one bit more are `2 ^ s` apart. -/
lemma HasBits.dvd {bits e s : Nat} (h : HasBits (bits + 1) e) (hle : 2 ^ (bits + s) ≤ e) :
    2 ^ s ∣ e := by
  obtain ⟨m, k, hm, rfl⟩ := h
  have hlt : m * 2 ^ k < 2 ^ (bits + 1 + k) := by
    rw [Nat.pow_add]
    exact Nat.mul_lt_mul_of_pos_right hm (Nat.two_pow_pos k)
  have hexponents : bits + s < bits + 1 + k :=
    (Nat.pow_lt_pow_iff_right Nat.one_lt_two).1 (Nat.lt_of_le_of_lt hle hlt)
  exact Dvd.dvd.mul_left (Nat.pow_dvd_pow 2 (by omega)) m

section Quotient

/-- The first 53 bits of a number. -/
lemma quotient_bounds (n : Nat) :
    n / 2 ^ (n.log2 - 52) < 2 ^ 53 ∧
      (n.log2 - 52 = 0 ∨ 2 ^ (52 + (n.log2 - 52)) ≤ n / 2 ^ (n.log2 - 52) * 2 ^ (n.log2 - 52)) := by
  have hupper : n < 2 ^ (n.log2 + 1) := Nat.lt_log2_self
  constructor
  · rw [Nat.div_lt_iff_lt_mul (Nat.two_pow_pos _), ← Nat.pow_add]
    exact Nat.lt_of_lt_of_le hupper (Nat.pow_le_pow_right Nat.two_pos (by omega))
  · rcases Nat.eq_zero_or_pos (n.log2 - 52) with hzero | hpos
    · exact .inl hzero
    · right
      have hne : n ≠ 0 := by
        rintro rfl
        simp at hpos
      have hlower : 2 ^ 52 ≤ n / 2 ^ (n.log2 - 52) := by
        rw [Nat.le_div_iff_mul_le (Nat.two_pow_pos _), ← Nat.pow_add,
          show 52 + (n.log2 - 52) = n.log2 by omega]
        exact Nat.log2_self_le hne
      rw [Nat.pow_add]
      exact Nat.mul_le_mul_right _ hlower

/-- Rounding goes to the quotient or the next number, whichever is nearer, and to the even one if
neither is. -/
lemma shiftRounded_cases (n s : Nat) :
    (shiftRounded n s = n / 2 ^ s ∧
      (2 * (n % 2 ^ s) < 2 ^ s ∨ 2 * (n % 2 ^ s) = 2 ^ s ∧ n / 2 ^ s % 2 = 0)) ∨
    (shiftRounded n s = n / 2 ^ s + 1 ∧
      (2 ^ s < 2 * (n % 2 ^ s) ∨ 2 * (n % 2 ^ s) = 2 ^ s ∧ n / 2 ^ s % 2 = 1)) := by
  simp only [shiftRounded, Nat.pow_eq, Bool.or_eq_true, Bool.and_eq_true, decide_eq_true_eq,
    beq_iff_eq]
  split
  · next hup => exact .inr ⟨rfl, hup⟩
  · next hdown =>
    refine .inl ⟨rfl, ?_⟩
    omega

/-- No number of few bits lies between the multiples of `2 ^ s` around a number that is large. -/
lemma HasBits.side {bits n s e : Nat} (h : HasBits (bits + 1) e)
    (hlow : s = 0 ∨ 2 ^ (bits + s) ≤ n / 2 ^ s * 2 ^ s) :
    e ≤ n / 2 ^ s * 2 ^ s ∨ n / 2 ^ s * 2 ^ s + 2 ^ s ≤ e := by
  rcases Nat.lt_or_ge (n / 2 ^ s * 2 ^ s) e with hlt | hge
  · right
    have hdvd : 2 ^ s ∣ e := by
      rcases hlow with rfl | hlow
      · simp
      · exact h.dvd (by omega)
    obtain ⟨c, rfl⟩ := hdvd
    rw [Nat.mul_comm (2 ^ s) c] at hlt ⊢
    have hc : n / 2 ^ s < c := Nat.lt_of_mul_lt_mul_right hlt
    calc n / 2 ^ s * 2 ^ s + 2 ^ s = (n / 2 ^ s + 1) * 2 ^ s := (Nat.succ_mul _ _).symm
      _ ≤ c * 2 ^ s := Nat.mul_le_mul_right _ hc
  · exact .inl hge

end Quotient

/-- The first 53 bits of a number, rounded by what is left, are the nearest number of 53 bits, a tie
going to the even one. -/
lemma isRounding_roundNat (n : Nat) : IsRounding n (roundNat n) := by
  obtain ⟨hquotient, hlow⟩ := quotient_bounds n
  have hround : roundNat n = shiftRounded n (n.log2 - 52) * 2 ^ (n.log2 - 52) := rfl
  rw [hround]
  generalize n.log2 - 52 = s at hquotient hlow ⊢
  have hsplit : n / 2 ^ s * 2 ^ s + n % 2 ^ s = n := by
    rw [Nat.mul_comm]
    exact Nat.div_add_mod n (2 ^ s)
  have hrest : n % 2 ^ s < 2 ^ s := Nat.mod_lt n (Nat.two_pow_pos s)
  have hside := fun e (he : HasBits 53 e) => he.side hlow
  -- an even significand leaves its last bit to the exponent
  have hhalf : ∀ m, m % 2 = 0 → m ≤ 2 ^ 53 → HasBits 52 (m * 2 ^ s) := by
    intro m heven hle
    have hm : m * 2 ^ s = m / 2 * 2 ^ (s + 1) := by
      rw [Nat.pow_succ', ← Nat.mul_assoc, Nat.div_mul_cancel (Nat.dvd_of_mod_eq_zero heven)]
    rw [hm]
    exact hasBits_of_le (by omega) (by omega) _
  rcases shiftRounded_cases n s with ⟨heq, hnear⟩ | ⟨heq, hnear⟩ <;> rw [heq]
  · refine ⟨hasBits_of_le (by omega) (by omega) _, ?_, ?_⟩
    · intro e he
      have := hside e he
      omega
    · intro e he hne htie
      have := hside e he
      exact hhalf _ (by omega) (by omega)
  · rw [Nat.succ_mul]
    refine ⟨?_, ?_, ?_⟩
    · rw [← Nat.succ_mul]
      exact hasBits_of_le (by omega) (by omega) _
    · intro e he
      have := hside e he
      omega
    · intro e he hne htie
      have := hside e he
      rw [← Nat.succ_mul]
      exact hhalf _ (by omega) (by omega)

/-! ### Numbers of few bits -/

lemma hasBits_zero (bits : Nat) : HasBits bits 0 := ⟨0, 0, Nat.two_pow_pos bits, rfl⟩

/-- An odd number needs all of its bits, whatever power of two it is multiplied with. -/
lemma not_hasBits_of_odd {bits m k : Nat} (hodd : Odd m) (hle : 2 ^ bits ≤ m) :
    ¬HasBits bits (m * 2 ^ k) := by
  rintro ⟨m', k', hm', heq⟩
  rcases Nat.lt_or_ge k k' with hlt | hge
  · -- the odd number would be a multiple of two
    obtain ⟨j, rfl⟩ := Nat.exists_eq_add_of_lt hlt
    rw [show k + j + 1 = j + 1 + k by omega, Nat.pow_add, ← Nat.mul_assoc] at heq
    have hm : m = m' * 2 ^ (j + 1) := Nat.eq_of_mul_eq_mul_right (Nat.two_pow_pos k) heq
    have heven : Even m := by
      rw [hm, Nat.pow_succ, ← Nat.mul_assoc]
      exact even_two.mul_left _
    exact Nat.not_even_iff_odd.2 hodd heven
  · obtain ⟨j, rfl⟩ := Nat.exists_eq_add_of_le hge
    rw [Nat.add_comm k' j, Nat.pow_add, ← Nat.mul_assoc] at heq
    have hm : m * 2 ^ j = m' := Nat.eq_of_mul_eq_mul_right (Nat.two_pow_pos k') heq
    have hbig : m ≤ m * 2 ^ j := Nat.le_mul_of_pos_right m (Nat.two_pow_pos j)
    omega

lemma exists_odd_mul {n : Nat} (h : n ≠ 0) : ∃ m k, Odd m ∧ n = m * 2 ^ k := by
  obtain ⟨k, m, hodd, rfl⟩ := Nat.exists_eq_two_pow_mul_odd h
  exact ⟨m, k, hodd, Nat.mul_comm _ _⟩

/-- The odd part of a number tells how many bits it has. -/
lemma hasBits_iff {bits n : Nat} :
    HasBits bits n ↔ n = 0 ∨ ∃ m k, Odd m ∧ m < 2 ^ bits ∧ n = m * 2 ^ k := by
  constructor
  · intro h
    rcases Nat.eq_zero_or_pos n with hzero | hpos
    · exact .inl hzero
    · obtain ⟨m, k, hodd, rfl⟩ := exists_odd_mul (Nat.ne_of_gt hpos)
      refine .inr ⟨m, k, hodd, Nat.lt_of_not_le fun hle => ?_, rfl⟩
      exact not_hasBits_of_odd hodd hle h
  · rintro (rfl | ⟨m, k, -, hm, rfl⟩)
    · exact hasBits_zero bits
    · exact ⟨m, k, hm, rfl⟩

lemma not_hasBits_iff {bits n : Nat} :
    ¬HasBits bits n ↔ ∃ m k, Odd m ∧ 2 ^ bits ≤ m ∧ n = m * 2 ^ k := by
  constructor
  · intro h
    have hne : n ≠ 0 := by
      rintro rfl
      exact h (hasBits_zero bits)
    obtain ⟨m, k, hodd, rfl⟩ := exists_odd_mul hne
    exact ⟨m, k, hodd, Nat.le_of_not_lt fun hm => h ⟨m, k, hm, rfl⟩, rfl⟩
  · rintro ⟨m, k, hodd, hle, rfl⟩
    exact not_hasBits_of_odd hodd hle

/-- Below `2 ^ (53 + s)` the last number of 53 bits is `2 ^ s` before it. -/
lemma HasBits.le_pred {d s : Nat} (h : HasBits 53 d) (hlt : d < 2 ^ (53 + s)) :
    d + 2 ^ s ≤ 2 ^ (53 + s) := by
  have hpow : 2 ^ (53 + s) = 2 ^ 53 * 2 ^ s := Nat.pow_add 2 53 s
  rcases Nat.lt_or_ge d (2 ^ (52 + s)) with hsmall | hlarge
  · have hpow' : 2 ^ (52 + s) = 2 ^ 52 * 2 ^ s := Nat.pow_add 2 52 s
    omega
  · obtain ⟨c, rfl⟩ := h.dvd hlarge
    rw [hpow, Nat.mul_comm (2 ^ s) c] at hlt ⊢
    have hc : c < 2 ^ 53 := Nat.lt_of_mul_lt_mul_right hlt
    rw [← Nat.succ_mul]
    exact Nat.mul_le_mul_right _ hc

/-! ### What every such rounding does -/

namespace IsRounding

variable {n d d' : Nat}

/-- Between two numbers of 52 bits that are not neighbours there is one of 53 bits. -/
lemma exists_between (hd : HasBits 52 d) (hd' : HasBits 52 d') (hlt : d < n) (hgt : n < d') :
    ∃ e, HasBits 53 e ∧ d < e ∧ e < d' := by
  obtain ⟨hquotient, hlow⟩ := quotient_bounds n
  generalize n.log2 - 52 = s at hquotient hlow
  rcases hlow with rfl | hlow
  · exact ⟨n, ⟨n, 0, by simpa using hquotient, by simp⟩, hlt, hgt⟩
  · have hhalf : n / 2 ^ (s + 1) = n / 2 ^ s / 2 := by
      rw [Nat.pow_succ, Nat.div_div_eq_div_mul]
    have hstep : 2 ^ (s + 1) = 2 * 2 ^ s := Nat.pow_succ'
    have hpow : 2 ^ (52 + s) = 2 ^ 52 * 2 ^ s := Nat.pow_add 2 52 s
    have hpos : 0 < 2 ^ s := Nat.two_pow_pos s
    have hlarge : 2 ^ 52 ≤ n / 2 ^ s := Nat.le_of_mul_le_mul_right (hpow ▸ hlow) hpos
    have hlow' : 2 ^ (51 + (s + 1)) ≤ n / 2 ^ (s + 1) * 2 ^ (s + 1) := by
      rw [Nat.pow_add]
      exact Nat.mul_le_mul_right _ (by omega)
    have hbelow := hd.side (.inr hlow')
    have habove := hd'.side (.inr hlow')
    have hsplit := Nat.div_add_mod n (2 ^ (s + 1))
    have hrest := Nat.mod_lt n (Nat.two_pow_pos (s + 1))
    rw [Nat.mul_comm] at hsplit
    have hbits : 2 * (n / 2 ^ (s + 1)) + 1 < 2 ^ 53 := by omega
    generalize n / 2 ^ (s + 1) = c at hbelow habove hsplit hbits
    have hmiddle : (2 * c + 1) * 2 ^ s = c * 2 ^ (s + 1) + 2 ^ s := by
      rw [Nat.succ_mul, Nat.mul_comm 2 c, Nat.mul_assoc, ← hstep]
    refine ⟨(2 * c + 1) * 2 ^ s, ⟨2 * c + 1, s, hbits, rfl⟩, ?_⟩
    rw [hmiddle]
    generalize c * 2 ^ (s + 1) = low at hbelow habove hsplit
    omega

/-- There is only one such rounding. -/
lemma eq (h : IsRounding n d) (h' : IsRounding n d') : d = d' := by
  have hle := h.nearest d' h'.hasBits
  have hge := h'.nearest d h.hasBits
  by_contra hne
  have heven := h.even d' h'.hasBits (Ne.symm hne) (by omega)
  have heven' := h'.even d h.hasBits hne (by omega)
  rcases Nat.lt_or_gt_of_ne hne with hlt | hgt
  · obtain ⟨e, he, hde, hed⟩ := exists_between (n := n) heven heven' (by omega) (by omega)
    have := h.nearest e he
    omega
  · obtain ⟨e, he, hde, hed⟩ := exists_between (n := n) heven' heven (by omega) (by omega)
    have := h.nearest e he
    omega

/-- Exactly the numbers of 53 bits stay as they are. -/
lemma eq_self_iff (h : IsRounding n d) : d = n ↔ HasBits 53 n := by
  constructor
  · rintro rfl
    exact h.hasBits
  · intro hn
    have := h.nearest n hn
    omega

/-- The rounding reaches a power of two from the middle between it and the number of 53 bits
before it on. -/
lemma overflows_iff (h : IsRounding n d) (s : Nat) :
    2 ^ (54 + s) ≤ d ↔ 2 ^ (54 + s) - 2 ^ s ≤ n := by
  have hpow : 2 ^ (54 + s) = 2 ^ 54 * 2 ^ s := Nat.pow_add 2 54 s
  have hstep : 2 ^ (s + 1) = 2 * 2 ^ s := Nat.pow_succ'
  have hlast : (2 ^ 53 - 1) * 2 ^ (s + 1) + 2 * 2 ^ s = 2 ^ (54 + s) := by omega
  have hpower : HasBits 53 (2 ^ (54 + s)) := ⟨1, 54 + s, by omega, by omega⟩
  have hbefore : HasBits 53 ((2 ^ 53 - 1) * 2 ^ (s + 1)) := ⟨2 ^ 53 - 1, s + 1, by omega, rfl⟩
  have hpos : 0 < 2 ^ s := Nat.two_pow_pos s
  constructor
  · intro hd
    have hnear := h.nearest _ hbefore
    omega
  · intro hn
    by_contra hd
    have hle := h.hasBits.le_pred (s := s + 1) (by rw [show 53 + (s + 1) = 54 + s by omega]; omega)
    rw [show 53 + (s + 1) = 54 + s by omega] at hle
    have hnear := h.nearest _ hpower
    -- only the middle is left, and there the last bit of the smaller neighbour is one
    have hd : d = (2 ^ 53 - 1) * 2 ^ (s + 1) := by omega
    have hbits := h.even _ hpower (by omega) (by omega)
    rw [hd] at hbits
    exact not_hasBits_of_odd (by decide) (by omega) hbits

end IsRounding

/-- **Rounding by division.**  The first 53 bits of a number, rounded by what is left, are the only
nearest number of 53 bits for which a tie goes to the even one. -/
theorem isRounding_iff {n d : Nat} : IsRounding n d ↔ d = roundNat n := by
  constructor
  · intro h
    exact h.eq (isRounding_roundNat n)
  · rintro rfl
    exact isRounding_roundNat n

/-! ### Answers -/

section Answers

variable {v d : Int} {bound : Nat}

/-- The magnitude of an integer is rounded and its sign is kept, unless the rounding reaches the
bound. -/
lemma ofInt?_eq (v : Int) (h : Nat.pow 2 1024 = bound) : ofInt? v =
    if roundNat v.natAbs < bound then
      some (if v < 0 then -(roundNat v.natAbs : Int) else roundNat v.natAbs)
    else none := by
  subst h
  rfl

lemma represents_of_none (h : ofInt? v = none) : represents (some v) = .unknown := by
  unfold represents
  simp only [h]

lemma represents_of_some (h : ofInt? v = some d) : represents (some v) = .ofBool (d == v) := by
  unfold represents
  simp only [h]

/-- The answer compares the magnitude with what it is rounded to. -/
lemma represents_eq (v : Int) (h : Nat.pow 2 1024 = bound) : represents (some v) =
    if roundNat v.natAbs < bound then .ofBool (roundNat v.natAbs == v.natAbs) else .unknown := by
  have heq := ofInt?_eq v h
  by_cases hlt : roundNat v.natAbs < bound
  · have hsign : (if v < 0 then -(roundNat v.natAbs : Int) else roundNat v.natAbs) = v ↔
        roundNat v.natAbs = v.natAbs := by
      split <;> omega
    rw [if_pos hlt] at heq ⊢
    rw [represents_of_some heq]
    simp only [beq_eq_decide, hsign]
  · rw [if_neg hlt] at heq ⊢
    exact represents_of_none heq

/-- What the answer says about a number and what it is rounded to. -/
lemma IsRounding.answer {n d middle : Nat} (h : IsRounding n d) (hover : bound ≤ d ↔ middle ≤ n)
    {a : Answer} (ha : a = if d < bound then .ofBool (d == n) else .unknown) :
    (a = .unknown ↔ middle ≤ n) ∧ (a = .yes ↔ HasBits 53 n ∧ n < bound) ∧
      (a = .no ↔ n < middle ∧ ¬HasBits 53 n) := by
  have hmiddle : n < middle ↔ d < bound := by omega
  rw [← h.eq_self_iff, ← hover, hmiddle, ha]
  rcases Nat.lt_or_ge d bound with hlt | hge
  · by_cases hself : d = n
    · subst hself
      simp [hlt]
    · simp [hlt, hself, Answer.ofBool]
  · have hself : ¬(d = n ∧ n < bound) := by omega
    simp [Nat.not_lt.2 hge, hge, hself]

/-- **Double representability.**  An integer is rounded to the one nearest number of 53 bits, half
to even, and overflows when the rounded magnitude reaches `2 ^ 1024`.  So the answer is open exactly
for the integers from the middle between the largest double and `2 ^ 1024` on, on both sides of
zero.  Of the others those whose odd part is below `2 ^ 53` are doubles, and those whose odd part is
not are none. -/
theorem represents_law (v : Int) :
    (∃ d, (∀ d', IsRounding v.natAbs d' ↔ d' = d) ∧
      ofInt? v = if d < 2 ^ 1024 then some (if v < 0 then -(d : Int) else d) else none) ∧
    (represents (some v) = .unknown ↔ 2 ^ 1024 - 2 ^ 970 ≤ v.natAbs) ∧
    (represents (some v) = .yes ↔ v = 0 ∨
      ∃ m k, Odd m ∧ m < 2 ^ 53 ∧ v.natAbs = m * 2 ^ k ∧ v.natAbs < 2 ^ 1024) ∧
    (represents (some v) = .no ↔ v.natAbs < 2 ^ 1024 - 2 ^ 970 ∧
      ∃ m k, Odd m ∧ 2 ^ 53 ≤ m ∧ v.natAbs = m * 2 ^ k) ∧
    represents (some (-v)) = represents (some v) := by
  -- the exponents stay symbols: no step has to compute a number of a thousand bits
  obtain ⟨s, hs⟩ : ∃ s, s = 970 := ⟨_, rfl⟩
  have hexponent : 1024 = 54 + s := by omega
  have hpow : Nat.pow 2 1024 = 2 ^ (54 + s) := by
    rw [hexponent]
    exact Nat.pow_eq
  rw [← hs, hexponent]
  have hrounding := isRounding_roundNat v.natAbs
  obtain ⟨hunknown, hyes, hno⟩ :=
    hrounding.answer (hrounding.overflows_iff s) (represents_eq v hpow)
  refine ⟨⟨roundNat v.natAbs, fun d' => isRounding_iff, ofInt?_eq v hpow⟩, hunknown, ?_, ?_, ?_⟩
  · rw [hyes, hasBits_iff]
    constructor
    · rintro ⟨hzero | ⟨m, k, hodd, hm, hn⟩, hlt⟩
      · exact .inl (Int.natAbs_eq_zero.1 hzero)
      · exact .inr ⟨m, k, hodd, hm, hn, hlt⟩
    · rintro (rfl | ⟨m, k, hodd, hm, hn, hlt⟩)
      · exact ⟨.inl rfl, Nat.two_pow_pos _⟩
      · exact ⟨.inr ⟨m, k, hodd, hm, hn⟩, hlt⟩
  · rw [hno, not_hasBits_iff]
  · rw [represents_eq (-v) hpow, represents_eq v hpow, Int.natAbs_neg]

end Answers

end Double

end TreeLint
