/-
Tables, and lists that are made of lists.
-/
import Mathlib.Algebra.BigOperators.Group.List.Basic
import Mathlib.Algebra.GroupWithZero.Nat
import Mathlib.Data.List.Basic
import Mathlib.Logic.Function.Basic
namespace TreeLint

lemma lookup_eq_some_iff_mem {β : Type} {table : List (String × β)}
    (h : (table.map Prod.fst).Nodup) (key : String) (value : β) :
    table.lookup key = some value ↔ (key, value) ∈ table := by
  induction table with
  | nil => simp
  | cons entry rest ih =>
    obtain ⟨k, v⟩ := entry
    rw [List.map_cons, List.nodup_cons] at h
    obtain ⟨hnot, hrest⟩ := h
    rcases eq_or_ne k key with rfl | hne
    · have hmem : (k, value) ∉ rest := fun hmem => hnot (List.mem_map.2 ⟨_, hmem, rfl⟩)
      simp [hmem, eq_comm]
    · have hbeq : (key == k) = false := by simpa using hne.symm
      simp only [List.lookup_cons, hbeq, ih hrest, List.mem_cons, Prod.mk.injEq, hne.symm,
        false_and, false_or]

variable {α β : Type}

/-- A list whose members belong to different names is made of the parts that belong to each. -/
lemma perm_flatMap_filter {names : List String} (hn : names.Nodup) (key : α → String) (l : List α)
    (hkey : ∀ a ∈ l, key a ∈ names) :
    (names.flatMap fun name => l.filter (fun a => key a = name)).Perm l := by
  induction names generalizing l with
  | nil =>
    cases l with
    | nil => exact .nil
    | cons a rest => exact absurd (hkey a List.mem_cons_self) List.not_mem_nil
  | cons name rest ih =>
    obtain ⟨hnot, hrest⟩ := List.nodup_cons.1 hn
    -- what does not belong to the first name belongs to one of the others
    have hothers := ih hrest (l.filter (fun a => !decide (key a = name))) (by
      intro a ha
      obtain ⟨hmem, hne⟩ := List.mem_filter.1 ha
      exact (List.mem_cons.1 (hkey a hmem)).resolve_left (by simpa using hne))
    have hsame : (rest.flatMap fun other =>
        (l.filter (fun a => !decide (key a = name))).filter (fun a => key a = other)) =
        rest.flatMap fun other => l.filter (fun a => key a = other) := by
      refine List.flatMap_congr fun other hother => ?_
      rw [List.filter_filter]
      refine List.filter_congr fun a _ => ?_
      by_cases hname : key a = other
      · have hne : other ≠ name := fun heq => hnot (heq ▸ hother)
        simp [hname, hne]
      · simp [hname]
    rw [hsame] at hothers
    rw [List.flatMap_cons]
    exact (hothers.append_left _).trans (List.filter_append_perm _ l)

/-- When one summand grows, the sum grows by as much. -/
lemma sum_map_update {names : List String} (hn : names.Nodup) {name : String} (hname : name ∈ names)
    (f : String → Nat) (more : Nat) :
    (names.map (Function.update f name (f name + more))).sum = (names.map f).sum + more := by
  induction names with
  | nil => cases hname
  | cons other rest ih =>
    obtain ⟨hnot, hrest⟩ := List.nodup_cons.1 hn
    rw [List.map_cons, List.map_cons, List.sum_cons, List.sum_cons]
    rcases List.mem_cons.1 hname with rfl | hmem
    · have hsame : rest.map (Function.update f name (f name + more)) = rest.map f :=
        List.map_congr_left fun other hother =>
          Function.update_of_ne (ne_of_mem_of_not_mem hother hnot) _ _
      rw [hsame, Function.update_self]
      omega
    · rw [ih hrest hmem, Function.update_of_ne (ne_of_mem_of_not_mem hmem hnot).symm]
      omega

end TreeLint
