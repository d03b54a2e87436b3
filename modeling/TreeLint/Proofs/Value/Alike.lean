/-
Values that are alike.

Two values are alike if they are of one kind and equal, except that the entries of their
mappings and the members of their sets may come in another order.  Nothing else is alike: a
truth value and a number are not, and neither are an integer and a float.

Of two mappings that are alike, one has its entries, pair by pair, where the other has
them in some order (`exists_perm_of_entriesAlike`).
-/
import Mathlib.Data.List.Perm.Basic
import TreeLint.Value
namespace TreeLint.Value

mutual

/-- Whether two values are equal but for the order of entries and members. -/
def alike : Value → Value → Bool
  | null, null => true
  | bool b, bool c => b == c
  | int m, int n => m == n
  | float x, float y => x == y
  | string s, string t => s == t
  | list items, list others => itemsAlike items others
  | mapping entries, mapping others => entriesAlike entries others
  | set members, set others => membersAlike members others
  | pair first second, pair other last => alike first other && alike second last
  | foreign f, foreign g => f.key == g.key
  | _, _ => false

/-- Whether lists have items that are alike at the same places. -/
def itemsAlike : List Value → List Value → Bool
  | [], [] => true
  | v :: rest, w :: others => alike v w && itemsAlike rest others
  | _, _ => false

/-- Whether members of sets are alike in some order: each one takes the first that is alike from the
others, and none is left. -/
def membersAlike : List Value → List Value → Bool
  | [], others => others.isEmpty
  | v :: rest, others =>
    others.any (fun w => alike v w) && membersAlike rest (others.eraseP (fun w => alike v w))

/-- Whether entries are alike in some order: each one takes the first that is alike from the
others, and none is left. -/
def entriesAlike : List (Value × Value) → List (Value × Value) → Bool
  | [], others => others.isEmpty
  | (k, v) :: rest, others =>
    others.any (fun e => alike k e.1 && alike v e.2) &&
      entriesAlike rest (others.eraseP (fun e => alike k e.1 && alike v e.2))

end

variable {v w : Value} {s : String} {texts : List String} {entries others : List (Value × Value)}

/-! ### Kinds -/

@[simp] lemma alike_null_iff : null.alike w ↔ null = w := by
  cases w <;> simp [alike]

@[simp] lemma alike_int_iff {n : Int} : (int n).alike w ↔ int n = w := by
  cases w <;> simp [alike]

@[simp] lemma alike_string_iff : (string s).alike w ↔ string s = w := by
  cases w <;> simp [alike]

/-- Lists of texts are only alike if they are the same. -/
lemma alike_texts_iff : (list (texts.map string)).alike w ↔ list (texts.map string) = w := by
  have hitems : ∀ others, itemsAlike (texts.map string) others ↔ texts.map string = others := by
    induction texts with
    | nil => intro others; cases others <;> simp [itemsAlike]
    | cons s rest ih => intro others; cases others <;> simp [itemsAlike, ih]
  cases w <;> simp [alike, hitems]

/-- What is alike to a mapping is one. -/
lemma exists_of_mapping_alike (h : (mapping entries).alike w) :
    ∃ others, w = mapping others ∧ entriesAlike entries others := by
  cases w <;> simp only [alike, Bool.false_eq_true] at h
  exact ⟨_, rfl, h⟩

/-! ### Mappings -/

/-- Entries that are alike are so pair by pair, in some order. -/
lemma exists_perm_of_entriesAlike (h : entriesAlike entries others) : ∃ ordered,
    others.Perm ordered ∧
      List.Forall₂ (fun e f => e.1.alike f.1 ∧ e.2.alike f.2) entries ordered := by
  induction entries generalizing others with
  | nil =>
    rw [entriesAlike, List.isEmpty_iff] at h
    exact ⟨[], by rw [h], .nil⟩
  | cons e rest ih =>
    obtain ⟨k, v⟩ := e
    rw [entriesAlike, Bool.and_eq_true, List.any_eq_true] at h
    obtain ⟨⟨f, hf, halike⟩, hrest⟩ := h
    obtain ⟨g, before, after, -, hg, hothers, herase⟩ :=
      List.exists_of_eraseP (p := fun e => k.alike e.1 && v.alike e.2) hf halike
    obtain ⟨ordered, hperm, hall⟩ := ih (herase ▸ hrest)
    refine ⟨g :: ordered, ?_, .cons (by simpa using hg) hall⟩
    rw [hothers]
    exact List.perm_middle.trans (hperm.cons g)

/-- Every entry comes from one that it is like. -/
lemma exists_alike_of_mem {f : Value × Value} (h : entriesAlike entries others) (hf : f ∈ others) :
    ∃ e ∈ entries, e.1.alike f.1 ∧ e.2.alike f.2 := by
  obtain ⟨ordered, hperm, hall⟩ := exists_perm_of_entriesAlike h
  replace hf := hperm.subset hf
  clear h hperm
  induction hall with
  | nil => cases hf
  | @cons e _ _ _ hfirst _ ih =>
    rcases List.mem_cons.1 hf with rfl | hrest
    · exact ⟨e, List.mem_cons_self, hfirst⟩
    · obtain ⟨d, hd, halike⟩ := ih hrest
      exact ⟨d, List.mem_cons_of_mem _ hd, halike⟩

end TreeLint.Value
