/-
Values that have a text.

A value inside other values has a text exactly if values stand within values at no more
levels than may be used, no integer in it is too long, and every foreign value in it can be
shown (`exists_quotedWithin_iff`).  Which levels may be used is up to the machine, but two
are always enough.  By itself a text always has a text, and a foreign value decides for
itself; for all others both questions are the same (`exists_text_iff`).
-/
import Mathlib.Data.List.Basic
import TreeLint.Proofs.Except
import TreeLint.Value
namespace TreeLint

/-- A small machine, on which runs can be followed. -/
@[reducible] def Machine.small : Machine where
  listLimit := 1000
  nesting := 100
  documentDepth := 100

namespace Value

mutual

/-- The number of levels at which values stand within a value, itself included. -/
def levels : Value → Nat
  | list items | set items => itemsLevels items + 1
  | mapping entries => entriesLevels entries + 1
  | pair first second => max first.levels second.levels + 1
  | _ => 1

/-- The greatest number of levels of the items of a list. -/
def itemsLevels : List Value → Nat
  | [] => 0
  | v :: rest => max v.levels (itemsLevels rest)

/-- The greatest number of levels of the keys and the values of entries. -/
def entriesLevels : List (Value × Value) → Nat
  | [] => 0
  | (k, v) :: rest => max (max k.levels v.levels) (entriesLevels rest)

end

mutual

/-- The values within a value that are not made of others. -/
def leaves : Value → List Value
  | list items | set items => itemsLeaves items
  | mapping entries => entriesLeaves entries
  | pair first second => first.leaves ++ second.leaves
  | v => [v]

/-- The leaves of the items of a list. -/
def itemsLeaves : List Value → List Value
  | [] => []
  | v :: rest => v.leaves ++ itemsLeaves rest

/-- The leaves of the keys and the values of entries. -/
def entriesLeaves : List (Value × Value) → List Value
  | [] => []
  | (k, v) :: rest => k.leaves ++ v.leaves ++ entriesLeaves rest

end

/-- Whether a leaf can be shown: an integer that is not too long, a foreign value with a text, or
anything else. -/
def IsTold : Value → Prop
  | int n => n.natAbs < leastLong
  | foreign f => ∃ s, f.quoted = .ok s
  | _ => True

/-- Whether a value can be shown with some levels. -/
def IsShown (levels : Nat) (v : Value) : Prop := v.levels ≤ levels ∧ ∀ leaf ∈ v.leaves, leaf.IsTold

variable {n : Nat} {v : Value} {items : List Value} {entries : List (Value × Value)}

lemma exists_decimal_iff {i : Int} : (∃ s, decimal i = .ok s) ↔ i.natAbs < leastLong := by
  unfold decimal
  split <;> simp [*]

lemma decimal_of_lt {i : Int} (h : i.natAbs < leastLong) : decimal i = .ok (toString i) := if_pos h

lemma decimal_of_leastLong_le {i : Int} (h : leastLong ≤ i.natAbs) :
    decimal i = .error .longInteger := by
  rw [decimal, if_neg (Nat.not_lt.2 h)]

/-- The least number with too many digits has no text. -/
lemma decimal_leastLong : decimal leastLong = .error .longInteger :=
  decimal_of_leastLong_le (Nat.le_of_eq (Int.natAbs_natCast leastLong).symm)

/-- No integer with a single digit is too long. -/
lemma ten_le_leastLong : 10 ≤ leastLong := by
  have hpow : ∀ n, n ≠ 0 → 10 ≤ Nat.pow 10 n := fun n hn => Nat.le_self_pow hn 10
  unfold leastLong
  exact hpow _ (by decide)

/-! ### Rows -/

lemma exists_itemsWithin_iff : (∃ texts, itemsWithin n items = .ok texts) ↔
    ∀ v ∈ items, ∃ s, quotedWithin n v = .ok s := by
  induction items with
  | nil => simp [itemsWithin]
  | cons v rest ih =>
    rw [itemsWithin, Except.exists_bind_iff, List.forall_mem_cons, ← ih]
    simp only [Except.exists_bind_iff, pure, Except.pure, Except.ok.injEq, exists_eq', and_true]
    simp

lemma exists_entriesWithin_iff : (∃ texts, entriesWithin n entries = .ok texts) ↔
    ∀ e ∈ entries, (∃ s, quotedWithin n e.1 = .ok s) ∧ ∃ s, quotedWithin n e.2 = .ok s := by
  induction entries with
  | nil => simp [entriesWithin]
  | cons e rest ih =>
    rw [entriesWithin, Except.exists_bind_iff, List.forall_mem_cons, ← ih]
    simp only [Except.exists_bind_iff, pure, Except.pure, Except.ok.injEq, exists_eq', and_true]
    simp [and_assoc]

lemma itemsLevels_le_iff : itemsLevels items ≤ n ↔ ∀ v ∈ items, v.levels ≤ n := by
  induction items with
  | nil => simp [itemsLevels]
  | cons v rest ih => rw [itemsLevels, Nat.max_le, ih, List.forall_mem_cons]

lemma entriesLevels_le_iff :
    entriesLevels entries ≤ n ↔ ∀ e ∈ entries, e.1.levels ≤ n ∧ e.2.levels ≤ n := by
  induction entries with
  | nil => simp [entriesLevels]
  | cons e rest ih => rw [entriesLevels, Nat.max_le, Nat.max_le, ih, List.forall_mem_cons]

lemma mem_itemsLeaves_iff {leaf : Value} :
    leaf ∈ itemsLeaves items ↔ ∃ v ∈ items, leaf ∈ v.leaves := by
  induction items with
  | nil => simp [itemsLeaves]
  | cons v rest ih => simp [itemsLeaves, ih]

lemma mem_entriesLeaves_iff {leaf : Value} :
    leaf ∈ entriesLeaves entries ↔ ∃ e ∈ entries, leaf ∈ e.1.leaves ∨ leaf ∈ e.2.leaves := by
  induction entries with
  | nil => simp [entriesLeaves]
  | cons e rest ih => simp [entriesLeaves, ih, or_assoc]

/-- A row of values can be shown if each of them can be, at one level less. -/
lemma forall_isShown_iff : (∀ v ∈ items, IsShown n v) ↔
    itemsLevels items ≤ n ∧ ∀ leaf ∈ itemsLeaves items, leaf.IsTold := by
  simp only [IsShown, itemsLevels_le_iff, mem_itemsLeaves_iff, forall_exists_index, and_imp]
  exact ⟨fun h => ⟨fun v hv => (h v hv).1, fun leaf v hv => (h v hv).2 leaf⟩,
    fun h v hv => ⟨h.1 v hv, fun leaf => h.2 leaf v hv⟩⟩

lemma forall_entries_isShown_iff : (∀ e ∈ entries, IsShown n e.1 ∧ IsShown n e.2) ↔
    entriesLevels entries ≤ n ∧ ∀ leaf ∈ entriesLeaves entries, leaf.IsTold := by
  simp only [IsShown, entriesLevels_le_iff, mem_entriesLeaves_iff, forall_exists_index, and_imp]
  constructor
  · intro h
    refine ⟨fun e he => ⟨(h e he).1.1, (h e he).2.1⟩, fun leaf e he hleaf => ?_⟩
    exact hleaf.elim ((h e he).1.2 leaf) ((h e he).2.2 leaf)
  · intro h e he
    exact ⟨⟨(h.1 e he).1, fun leaf hleaf => h.2 leaf e he (.inl hleaf)⟩,
      (h.1 e he).2, fun leaf hleaf => h.2 leaf e he (.inr hleaf)⟩

/-! ### Texts -/

/-- A value that has leaves only at one level is shown if it is one of them that can be told. -/
lemma isShown_succ_leaf (hlevels : v.levels = 1) (hleaves : v.leaves = [v]) :
    IsShown (n + 1) v ↔ v.IsTold := by
  rw [IsShown, hlevels, hleaves, List.forall_mem_singleton]
  exact and_iff_right (Nat.le_add_left 1 n)

/-- A value has a text inside others exactly if it can be shown with the levels that are left. -/
theorem exists_quotedWithin_iff : (∃ s, quotedWithin n v = .ok s) ↔ IsShown n v := by
  induction n generalizing v with
  | zero =>
    have hlevels : ¬v.levels ≤ 0 := by cases v <;> simp [levels]
    simp [quotedWithin, IsShown, hlevels]
  | succ n ih =>
    have hrow : ∀ items, (∃ texts, itemsWithin n items = .ok texts) ↔
        itemsLevels items ≤ n ∧ ∀ leaf ∈ itemsLeaves items, leaf.IsTold := fun items => by
      rw [exists_itemsWithin_iff, ← forall_isShown_iff]
      exact forall₂_congr fun _ _ => ih
    cases v with
    | null | bool | float | string =>
      rw [isShown_succ_leaf (by simp [levels]) (by simp [leaves])]
      simp [quotedWithin, IsTold]
    | int i =>
      rw [isShown_succ_leaf (by simp [levels]) (by simp [leaves])]
      exact exists_decimal_iff
    | foreign f =>
      rw [isShown_succ_leaf (by simp [levels]) (by simp [leaves])]
      rfl
    | list items =>
      rw [quotedWithin, Except.exists_bind_iff, IsShown, levels, leaves,
        Nat.add_le_add_iff_right, ← hrow]
      simp [pure, Except.pure]
    | set items =>
      cases items with
      | nil => simp [quotedWithin, IsShown, levels, leaves, itemsLevels, itemsLeaves]
      | cons v rest =>
        rw [quotedWithin, Except.exists_bind_iff, IsShown, levels, leaves, Nat.add_le_add_iff_right,
          ← hrow]
        · simp [pure, Except.pure]
        · exact List.cons_ne_nil _ _
    | mapping entries =>
      rw [quotedWithin, Except.exists_bind_iff, IsShown, levels, leaves, Nat.add_le_add_iff_right,
        ← forall_entries_isShown_iff]
      have hentries := @exists_entriesWithin_iff n entries
      simp only [ih] at hentries
      rw [← hentries]
      simp [pure, Except.pure]
    | pair first second =>
      rw [quotedWithin, Except.exists_bind_iff, IsShown, levels, leaves, Nat.add_le_add_iff_right,
        Nat.max_le, List.forall_mem_append]
      simp only [Except.exists_bind_iff, pure, Except.pure, Except.ok.injEq, exists_eq', and_true]
      have hpair : (∃ a, quotedWithin n first = .ok a ∧ ∃ b, quotedWithin n second = .ok b) ↔
          IsShown n first ∧ IsShown n second := by
        rw [← ih, ← ih, exists_and_right]
      rw [hpair, IsShown, IsShown, and_and_and_comm]

variable [Machine]

/-- A text can be shown. -/
lemma quoted_string (s : String) : (string s).quoted = .ok (Text.quoted s) := rfl

lemma quoted_int (i : Int) : (int i).quoted = decimal i := by
  rw [quoted, quotedWithin]

/-- A value has a text inside others exactly if it can be shown with the levels of the machine. -/
lemma exists_quoted_iff : (∃ s, v.quoted = .ok s) ↔ IsShown (Machine.nesting + 2) v :=
  exists_quotedWithin_iff

/-- A value has a text by itself exactly if it is a text, or a foreign value that has one, or can be
shown inside others. -/
lemma exists_text_iff : (∃ s, v.text = .ok s) ↔
    match v with
    | string _ => True
    | foreign f => ∃ s, f.text = .ok s
    | v => IsShown (Machine.nesting + 2) v := by
  cases v <;> first
    | exact exists_quoted_iff
    | simp [text]

end Value

end TreeLint
