/-
Where an offset lies.

Among ascending line starts an offset lies between the start of its line and that of the
next line (`Location.exists_ofOffset?`).  The starts of a text are its beginning and the
places behind its line feeds, so the line of an offset starts behind the last line feed
before it (`Location.IsLineStart`), and the column is counted from there.  The line is
the number of line feeds before the offset, which is also the place of its piece among
those that the line feeds leave (`Suppression.exists_piece`).  The start of the line and
the column give the offset back, and with the offset the location advances.
-/
import Mathlib.Algebra.GroupWithZero.Nat
import Mathlib.Data.List.Pairwise
import TreeLint.Proofs.Syntax.Lines
namespace TreeLint

namespace Location

/-- Whether a location comes before another one: on an earlier line, or on the same line in an
earlier column. -/
def IsBefore (l l' : Location) : Prop :=
  l.line < l'.line ∨ l.line = l'.line ∧ l.column < l'.column

/-- The place where the line of an offset starts: the beginning of the text, or the place behind
the last line feed before the offset. -/
structure IsLineStart (cs : List Char) (offset start : Nat) : Prop where
  le : start ≤ offset
  begins : start = 0 ∨ ∃ i, start = i + 1 ∧ cs[i]? = some '\n'
  last : ∀ i, start ≤ i → i < offset → cs[i]? ≠ some '\n'

/-! ### Ascending line starts -/

section Ascending

variable {starts : Array Int} {offset first : Int}

lemma IsAscending.le (h : IsAscending starts) {i j : Nat} {s t : Int} (hij : i ≤ j)
    (hs : starts[i]? = some s) (ht : starts[j]? = some t) : s ≤ t := by
  obtain ⟨hi, rfl⟩ := Array.getElem?_eq_some_iff.1 hs
  obtain ⟨hj, rfl⟩ := Array.getElem?_eq_some_iff.1 ht
  rcases Nat.lt_or_eq_of_le hij with hlt | rfl
  · have hle := List.pairwise_iff_getElem.1 h i j (by simpa using hi) (by simpa using hj) hlt
    simpa only [Array.getElem_toList] using hle
  · exact Int.le_refl _

/-- An offset is not before the start of its line, and it is before the start of the next one. -/
lemma exists_ofOffset? (h : IsAscending starts) (hfirst : starts[0]? = some first)
    (hle : first ≤ max offset 0) :
    ∃ (k : Nat) (s : Int), ofOffset? starts offset = some ⟨k + 1, max offset 0 - s + 1⟩ ∧
      starts[k]? = some s ∧ s ≤ max offset 0 ∧
      ∀ next, starts[k + 1]? = some next → max offset 0 < next := by
  have hcount := countUpTo_of_isAscending h (max offset 0)
  have hcut : ∀ i (hi : i < starts.size),
      i < countUpTo starts (max offset 0) ↔ starts[i] ≤ max offset 0 := by
    intro i hi
    rw [hcount, lt_countP_iff h _ (by simpa using hi), Array.getElem_toList]
  obtain ⟨hsize, rfl⟩ := Array.getElem?_eq_some_iff.1 hfirst
  obtain ⟨k, hk⟩ := Nat.exists_eq_add_one.2 ((hcut 0 hsize).2 hle)
  have hbound : k < starts.size := by
    have := countUpTo_le_size starts (max offset 0)
    omega
  refine ⟨k, starts[k], ?_, Array.getElem?_eq_getElem hbound, (hcut k hbound).1 (by omega), ?_⟩
  · simp only [ofOffset?, hk, Array.getElem?_eq_getElem hbound, Option.map_some]
  · intro next hnext
    obtain ⟨hlt, rfl⟩ := Array.getElem?_eq_some_iff.1 hnext
    have := hcut (k + 1) hlt
    omega

end Ascending

/-! ### The line starts of a text -/

/-- The starts after the first one stand behind the line feeds. -/
lemma mem_startsAfter_iff {i : Nat} {cs : List Char} {s : Int} :
    s ∈ startsAfter i cs ↔ ∃ j, s = ((i + j + 1 : Nat) : Int) ∧ cs[j]? = some '\n' := by
  induction cs generalizing i with
  | nil => simp [startsAfter]
  | cons c rest ih =>
    -- the first character, or one of the rest
    have hsplit : (∃ j, s = ((i + j + 1 : Nat) : Int) ∧ (c :: rest)[j]? = some '\n') ↔
        (s = ((i + 1 : Nat) : Int) ∧ c = '\n') ∨
          ∃ j, s = ((i + 1 + j + 1 : Nat) : Int) ∧ rest[j]? = some '\n' := by
      constructor
      · rintro ⟨j, hs, hj⟩
        cases j with
        | zero => exact .inl ⟨hs, by simpa using hj⟩
        | succ j => exact .inr ⟨j, by omega, by simpa using hj⟩
      · rintro (⟨hs, hc⟩ | ⟨j, hs, hj⟩)
        · exact ⟨0, hs, by simpa using hc⟩
        · exact ⟨j + 1, by omega, by simpa using hj⟩
    rw [hsplit, ← ih, startsAfter]
    by_cases hc : c = '\n'
    · simp [hc]
    · simp [hc]

lemma mem_startsOf_iff {text : String} {s : Int} :
    s ∈ startsOf text ↔
      s = 0 ∨ ∃ j, s = ((j + 1 : Nat) : Int) ∧ text.toList[j]? = some '\n' := by
  simp [startsOf, mem_startsAfter_iff]

/-- The line of an offset starts behind the last line feed before it. -/
lemma isLineStart_of_between {text : String} {p k : Nat} {s : Int}
    (hs : (startsOf text)[k]? = some s) (hle : s ≤ p)
    (hnext : ∀ next, (startsOf text)[k + 1]? = some next → (p : Int) < next) :
    ∃ start : Nat, s = start ∧ IsLineStart text.toList p start := by
  have hstart := mem_startsOf_iff.1 (Array.mem_of_getElem? hs)
  obtain ⟨start, rfl⟩ : ∃ start : Nat, s = start := by
    rcases hstart with rfl | ⟨j, rfl, -⟩
    · exact ⟨0, rfl⟩
    · exact ⟨j + 1, rfl⟩
  refine ⟨start, rfl, by omega, ?_, ?_⟩
  · rcases hstart with hzero | ⟨j, hj, hfeed⟩
    · exact .inl (by omega)
    · exact .inr ⟨j, by omega, hfeed⟩
  · -- a later line feed would start a line between this one and the offset
    intro i hi hip hfeed
    have hmem : ((i + 1 : Nat) : Int) ∈ startsOf text := mem_startsOf_iff.2 (.inr ⟨i, rfl, hfeed⟩)
    obtain ⟨m, hm⟩ := Array.mem_iff_getElem?.1 hmem
    have hascending := isAscending_startsOf text
    rcases Nat.lt_or_ge k m with hlt | hge
    · obtain ⟨hbound, -⟩ := Array.getElem?_eq_some_iff.1 hm
      have hsize : k + 1 < (startsOf text).size := by omega
      have hk := Array.getElem?_eq_getElem hsize
      have hbefore := hnext _ hk
      have hafter := hascending.le hlt hk hm
      omega
    · have := hascending.le hge hm hs
      omega

/-- The location of an offset in a text: its line has the number of the line feeds before the
offset, and its column is counted from the start of the line. -/
lemma exists_location (text : String) (offset : Int) :
    ∃ k start : Nat, ofOffset? (startsOf text) offset = some ⟨k + 1, max offset 0 - start + 1⟩ ∧
      (startsOf text)[k]? = some (start : Int) ∧
      k = (text.toList.take offset.toNat).count '\n' ∧
      IsLineStart text.toList offset.toNat start := by
  have hoffset : max offset 0 = (offset.toNat : Int) := by omega
  have hfirst : (startsOf text)[0]? = some 0 := rfl
  obtain ⟨k, s, hfound, hs, hle, hnext⟩ :=
    exists_ofOffset? (isAscending_startsOf text) hfirst (Int.le_max_right offset 0)
  rw [hoffset] at hle hnext
  obtain ⟨start, rfl, hstart⟩ := isLineStart_of_between hs hle hnext
  have hline := line_ofOffset? text hfound
  simp only at hline
  exact ⟨k, start, hfound, hs, by omega, hstart⟩

/-- With the offset the location advances. -/
lemma isBefore_of_lt {text : String} {offset offset' : Int} {l l' : Location} (hpos : 0 ≤ offset)
    (hlt : offset < offset') (h : ofOffset? (startsOf text) offset = some l)
    (h' : ofOffset? (startsOf text) offset' = some l') : l.IsBefore l' := by
  obtain ⟨k, start, hfound, hs, hk, -⟩ := exists_location text offset
  obtain ⟨k', start', hfound', hs', hk', -⟩ := exists_location text offset'
  rw [h] at hfound
  rw [h'] at hfound'
  cases hfound
  cases hfound'
  have hle : k ≤ k' := by
    have hprefix : text.toList.take offset.toNat <+: text.toList.take offset'.toNat :=
      List.take_prefix_take_left (by omega)
    rw [hk, hk']
    exact hprefix.sublist.count_le _
  rcases Nat.lt_or_eq_of_le hle with hline | rfl
  · exact .inl (by simpa using hline)
  · rw [hs] at hs'
    cases hs'
    refine .inr ⟨rfl, ?_⟩
    simp only
    omega

end Location

/-! ### The pieces between line feeds -/

namespace Suppression

/-- The number of characters of some lines, with a line feed behind each. -/
def extent (lines : List (List Char)) : Nat := (lines.map (·.length + 1)).sum

@[simp] lemma extent_nil : extent [] = 0 := rfl

@[simp] lemma extent_cons (line : List Char) (rest : List (List Char)) :
    extent (line :: rest) = line.length + 1 + extent rest := rfl

/-- The lines of a text have all of its characters, and one line feed more. -/
lemma extent_splitAtChar (separator : Char) (s : List Char) :
    extent (splitAtChar separator s) = s.length + 1 := by
  induction s with
  | nil => rfl
  | cons c rest ih =>
    obtain ⟨piece, pieces, hrest⟩ := List.exists_cons_of_ne_nil (splitAtChar_ne_nil separator rest)
    rw [splitAtChar, hrest]
    rw [hrest] at ih
    split <;> simp only [extent_cons, List.length_cons, List.length_nil] at ih ⊢ <;> omega

lemma length_splitAtChar (separator : Char) (s : List Char) :
    (splitAtChar separator s).length = s.count separator + 1 := by
  induction s with
  | nil => rfl
  | cons c rest ih =>
    obtain ⟨piece, pieces, hrest⟩ := List.exists_cons_of_ne_nil (splitAtChar_ne_nil separator rest)
    rw [splitAtChar, hrest, List.count_cons]
    rw [hrest, List.length_cons] at ih
    split
    · next hc => simp [hc, ih]
    · next hc => simp [hc, ih, List.length_cons]

/-- The line of an offset that is not behind the lines holds it. -/
lemma exists_piece {lines : List (List Char)} {offset : Nat} (h : offset < extent lines) :
    ∃ before piece after, lines = before ++ piece :: after ∧ lineAt lines offset = before.length ∧
      extent before ≤ offset ∧ offset ≤ extent before + piece.length := by
  induction lines generalizing offset with
  | nil => simp at h
  | cons line rest ih =>
    rw [extent_cons] at h
    cases rest with
    | nil => exact ⟨[], line, [], rfl, rfl, Nat.zero_le _, by simp at h ⊢; omega⟩
    | cons next rest =>
      rw [lineAt]
      split
      · next hle => exact ⟨[], line, next :: rest, rfl, rfl, Nat.zero_le _, by simpa using hle⟩
      · next hgt =>
        have hrest : offset - (line.length + 1) < extent (next :: rest) := by omega
        obtain ⟨before, piece, after, heq, hline, hlow, hhigh⟩ := ih hrest
        refine ⟨line :: before, piece, after, by rw [heq, List.cons_append], ?_, ?_, ?_⟩
        · rw [hline, List.length_cons]
        · rw [extent_cons]
          omega
        · rw [extent_cons]
          omega

end Suppression

namespace Location

open Suppression

/-- **From an offset to its location.**  A negative offset counts as the beginning of the text.  In
a text every offset has a location: its line is one more than the number of line feeds before the
offset, and its column is counted from the place behind the last of them.  So both are at least one,
the start of the line and the column give the offset back, and locations advance with their offsets.
What lies behind the text is on its last line, and every other offset on the piece between line
feeds that holds it, the line feed at the end of a piece included.  With any ascending line starts,
an offset that is not before the first of them lies between the start of its line and the next. -/
theorem ofOffset?_law (text : String) (offset : Int) :
    (∃ (l : Location) (start : Nat), ofOffset? (startsOf text) offset = some l ∧
      (∀ tree : Tree, tree.lineStarts = startsOf text → tree.location offset = .ok l) ∧
      l.line = 1 + (text.toList.take offset.toNat).count '\n' ∧
      IsLineStart text.toList offset.toNat start ∧ l.column = max offset 0 - start + 1 ∧
      1 ≤ l.line ∧ 1 ≤ l.column ∧
      (startsOf text)[(l.line - 1).toNat]? = some (start : Int) ∧
      start + l.column - 1 = max offset 0 ∧
      (text.length ≤ offset.toNat → l.line = (linesOf text).length) ∧
      (offset.toNat ≤ text.length → ∃ before piece after,
        linesOf text = before ++ piece :: after ∧ l.line = before.length + 1 ∧
          extent before ≤ offset.toNat ∧ offset.toNat ≤ extent before + piece.length)) ∧
    (∀ offset' l l', 0 ≤ offset → offset < offset' → ofOffset? (startsOf text) offset = some l →
      ofOffset? (startsOf text) offset' = some l' → l.IsBefore l') ∧
    (∀ starts first, IsAscending starts → starts[0]? = some first → first ≤ max offset 0 →
      ∃ l s, ofOffset? starts offset = some l ∧ 1 ≤ l.line ∧
        starts[(l.line - 1).toNat]? = some s ∧ s ≤ max offset 0 ∧
        ∀ next, starts[l.line.toNat]? = some next → max offset 0 < next) := by
  refine ⟨?_, fun offset' l l' hpos hlt h h' => isBefore_of_lt hpos hlt h h', ?_⟩
  · obtain ⟨k, start, hfound, hs, hk, hstart⟩ := exists_location text offset
    have hle := hstart.le
    have hlength : text.toList.length = text.length := String.length_toList
    refine ⟨_, start, hfound, ?_, ?_, hstart, rfl, ?_, ?_, ?_, ?_, ?_, ?_⟩
    · intro tree htree
      rw [Tree.location, htree, hfound]
    · simp only [← hk]
      omega
    · simp only
      omega
    · simp only
      omega
    · simpa using hs
    · simp only
      omega
    · intro hbehind
      simp only [linesOf, length_splitAtChar, hk]
      rw [List.take_of_length_le (by omega)]
      rfl
    · intro hwithin
      have hextent : offset.toNat < extent (linesOf text) := by
        rw [linesOf, extent_splitAtChar]
        omega
      obtain ⟨before, piece, after, heq, hline, hlow, hhigh⟩ := exists_piece hextent
      refine ⟨before, piece, after, heq, ?_, hlow, hhigh⟩
      rw [linesOf, lineAt_splitAtChar, ← hk] at hline
      simp only [hline]
  · intro starts first hascending hfirst hle
    obtain ⟨k, s, hfound, hs, hsle, hnext⟩ := exists_ofOffset? hascending hfirst hle
    refine ⟨_, s, hfound, ?_, by simpa using hs, hsle, ?_⟩
    · simp only
      omega
    · intro next hnext'
      exact hnext next (by simpa using hnext')

end Location

end TreeLint
