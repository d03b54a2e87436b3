/-
On which line an offset lies.

Two parts of an analysis number the lines of a text.  Locations come from the line
starts, by halving; comments are looked for on the pieces that the line feeds leave.
Both come to the number of line feeds before the offset: for ascending starts the
halving ends at the number of starts up to the offset
(`Location.countUpTo_of_isAscending`), and so `Tree.line_of_location` finds the
offset on the piece that holds it, on the last one if it lies behind the text and on
the first one if it is negative.
-/
import Mathlib.Data.List.Count
import TreeLint.Run.Suppression
import TreeLint.Syntax.Tree
namespace TreeLint

namespace Location

/-! ### Ascending line starts -/

/-- No line start is below one before it. -/
def IsAscending (starts : Array Int) : Prop := starts.toList.Pairwise (· ≤ ·)

/-- In an ascending list the members up to an offset come first. -/
lemma lt_countP_iff {l : List Int} (h : l.Pairwise (· ≤ ·)) (p : Int) {i : Nat}
    (hi : i < l.length) : i < l.countP (· ≤ p) ↔ l[i] ≤ p := by
  induction l generalizing i with
  | nil => cases hi
  | cons a rest ih =>
    obtain ⟨hfirst, hrest⟩ := List.pairwise_cons.1 h
    rw [List.countP_cons]
    by_cases ha : a ≤ p
    · cases i with
      | zero => simp [ha]
      | succ i =>
        have hih := ih hrest (i := i) (by simpa using hi)
        simp only [List.getElem_cons_succ, ha, decide_true, if_true, ← hih]
        omega
    -- the first member is behind the offset, and so are all others
    · have hnone : ∀ b ∈ a :: rest, ¬b ≤ p := by
        intro b hb
        rcases List.mem_cons.1 hb with rfl | hb
        · exact ha
        · exact fun hbp => ha (Int.le_trans (hfirst b hb) hbp)
      have hzero : rest.countP (· ≤ p) = 0 :=
        List.countP_eq_zero.2 fun b hb => by simpa using hnone b (List.mem_cons_of_mem _ hb)
      rw [hzero, if_neg (by simpa using ha)]
      exact iff_of_false (by omega) (hnone _ (List.getElem_mem hi))

variable {starts : Array Int} {p : Int}

/-- Halving keeps the number of starts up to the offset in its range, and ends there. -/
lemma halve_eq (h : IsAscending starts) {lo hi : Nat} (hhi : hi ≤ starts.size)
    (hlo : lo ≤ starts.toList.countP (· ≤ p)) (hle : starts.toList.countP (· ≤ p) ≤ hi) :
    halve starts p lo hi = starts.toList.countP (· ≤ p) := by
  have hcut : ∀ mid, mid < starts.size →
      (mid < starts.toList.countP (· ≤ p) ↔ starts.getD mid 0 ≤ p) := by
    intro mid hmid
    rw [lt_countP_iff h p (by simpa using hmid), Array.getD, dif_pos hmid]
    rfl
  fun_induction halve starts p lo hi with
  | case1 lo hi hlt mid hcmp ih =>
    have hmid := hcut mid (by omega)
    exact ih (by omega) hlo (by omega)
  | case2 lo hi hlt mid hcmp ih =>
    have hmid := hcut mid (by omega)
    exact ih hhi (by omega) hle
  | case3 lo hi hlt => omega

/-- For ascending starts, halving counts the starts up to an offset. -/
lemma countUpTo_of_isAscending (h : IsAscending starts) (p : Int) :
    countUpTo starts p = starts.toList.countP (· ≤ p) := by
  refine halve_eq h (Nat.le_refl _) (Nat.zero_le _) ?_
  rw [← Array.length_toList]
  exact List.countP_le_length

/-! ### The line starts of a text -/

lemma lt_of_mem_startsAfter {i : Nat} {cs : List Char} {s : Int} (h : s ∈ startsAfter i cs) :
    (i : Int) < s := by
  induction cs generalizing i with
  | nil => cases h
  | cons c rest ih =>
    rw [startsAfter] at h
    split at h
    · rcases List.mem_cons.1 h with rfl | h
      · omega
      · have := ih h
        omega
    · have := ih h
      omega

lemma pairwise_startsAfter (i : Nat) (cs : List Char) : (startsAfter i cs).Pairwise (· ≤ ·) := by
  induction cs generalizing i with
  | nil => exact .nil
  | cons c rest ih =>
    rw [startsAfter]
    split
    · exact .cons (fun s hs => Int.le_of_lt (lt_of_mem_startsAfter hs)) (ih _)
    · exact ih _

lemma isAscending_startsOf (text : String) : IsAscending (startsOf text) :=
  .cons (fun _ hs => Int.le_of_lt (lt_of_mem_startsAfter hs)) (pairwise_startsAfter _ _)

/-- The starts up to an offset are those of the line feeds before it. -/
lemma countP_startsAfter (i p : Nat) (cs : List Char) :
    (startsAfter i cs).countP (· ≤ (p : Int)) = (cs.take (p - i)).count '\n' := by
  induction cs generalizing i with
  | nil => simp [startsAfter]
  | cons c rest ih =>
    by_cases hi : i < p
    · obtain ⟨k, hk⟩ : ∃ k, p - i = k + 1 := ⟨p - i - 1, by omega⟩
      have hih := ih (i + 1)
      rw [show p - (i + 1) = k by omega] at hih
      rw [hk, List.take_succ_cons, startsAfter, List.count_cons]
      split
      · next hc =>
        rw [List.countP_cons_of_pos (by simp only [decide_eq_true_eq]; omega), hih, hc]
        rfl
      · next hc => rw [hih, if_neg (by simpa using hc), Nat.add_zero]
    -- the offset lies before all of these starts
    · have hzero : (startsAfter i (c :: rest)).countP (· ≤ (p : Int)) = 0 := by
        refine List.countP_eq_zero.2 fun s hs => ?_
        have := lt_of_mem_startsAfter hs
        simp only [decide_eq_true_eq]
        omega
      rw [hzero, Nat.sub_eq_zero_of_le (by omega), List.take_zero, List.count_nil]

/-- The line of an offset has the number of the line feeds before it, counted from one. -/
lemma countUpTo_startsOf (text : String) (p : Nat) :
    countUpTo (startsOf text) p = (text.toList.take p).count '\n' + 1 := by
  have hafter := countP_startsAfter 0 p text.toList
  rw [Nat.sub_zero] at hafter
  rw [countUpTo_of_isAscending (isAscending_startsOf text), startsOf, List.countP_cons_of_pos,
    hafter]
  simp

lemma line_ofOffset? (text : String) {offset : Int} {l : Location}
    (h : ofOffset? (startsOf text) offset = some l) :
    l.line = (text.toList.take offset.toNat).count '\n' + 1 := by
  have hcount := countUpTo_startsOf text offset.toNat
  have hmax : max offset 0 = (offset.toNat : Int) := by omega
  simp only [ofOffset?, hmax, hcount] at h
  obtain ⟨s, -, rfl⟩ := Option.map_eq_some_iff.1 h
  rfl

end Location

/-! ### The pieces between line feeds -/

namespace Suppression

/-- The place of the line that holds an offset, the lines counted from zero.  The line feed at the
end of a line belongs to it, and what lies behind the text belongs to the last line. -/
def lineAt : List (List Char) → Nat → Nat
  | line :: next :: rest, offset =>
    if offset ≤ line.length then 0 else lineAt (next :: rest) (offset - (line.length + 1)) + 1
  | _, _ => 0

lemma splitAtChar_ne_nil (separator : Char) (s : List Char) : splitAtChar separator s ≠ [] := by
  cases s with
  | nil => simp [splitAtChar]
  | cons c rest =>
    rw [splitAtChar]
    split
    · simp
    · split <;> simp

/-- A character before the first line moves everything on that line by one place. -/
lemma lineAt_cons_succ (c : Char) (line : List Char) (rest : List (List Char)) (offset : Nat) :
    lineAt ((c :: line) :: rest) (offset + 1) = lineAt (line :: rest) offset := by
  cases rest with
  | nil => rfl
  | cons next rest =>
    simp only [lineAt, List.length_cons, Nat.add_le_add_iff_right, Nat.add_sub_add_right]

/-- The line that holds an offset has as many line feeds before it as the offset. -/
lemma lineAt_splitAtChar (s : List Char) (offset : Nat) :
    lineAt (splitAtChar '\n' s) offset = (s.take offset).count '\n' := by
  induction s generalizing offset with
  | nil => simp [splitAtChar, lineAt]
  | cons c rest ih =>
    obtain ⟨piece, pieces, hrest⟩ := List.exists_cons_of_ne_nil (splitAtChar_ne_nil '\n' rest)
    rw [hrest] at ih
    cases offset with
    | zero =>
      rw [List.take_zero, List.count_nil, splitAtChar, hrest]
      split
      · rfl
      · cases pieces <;> simp [lineAt]
    | succ offset =>
      rw [List.take_succ_cons, List.count_cons, splitAtChar, hrest, ← ih]
      split
      · next hc =>
        subst hc
        simp [lineAt]
      · next hc => rw [lineAt_cons_succ, if_neg (by simpa using hc), Nat.add_zero]

end Suppression

/-- **Both numberings of the lines agree.**  In a file located by the line starts of its text, an
offset has the line that holds it among the pieces of the text between line feeds. -/
theorem Tree.line_of_location {tree : Tree} {text : String}
    (hstarts : tree.lineStarts = Location.startsOf text) {offset : Int} {l : Location}
    (h : tree.location offset = .ok l) :
    l.line = Suppression.lineAt (Suppression.linesOf text) offset.toNat + 1 := by
  rw [Tree.location, hstarts] at h
  split at h
  · next hl =>
    cases h
    rw [Location.line_ofOffset? text hl, Suppression.linesOf, Suppression.lineAt_splitAtChar]
  · cases h

end TreeLint
