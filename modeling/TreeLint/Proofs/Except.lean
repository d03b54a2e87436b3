/-
Steps that may fail.

Of two steps one after the other, both succeed or one of them fails; of the steps for the
members of a list, all succeed or the first that fails ends them.
-/
import Mathlib.Data.List.Forall2
namespace TreeLint.Except

variable {ε α β : Type} {x : Except ε α} {f : α → Except ε β} {b : β} {e : ε}

lemma bind_eq_ok_iff : (x >>= f) = .ok b ↔ ∃ a, x = .ok a ∧ f a = .ok b := by
  cases x <;> simp [bind, Except.bind]

lemma bind_eq_error_iff :
    (x >>= f) = .error e ↔ x = .error e ∨ ∃ a, x = .ok a ∧ f a = .error e := by
  cases x <;> simp [bind, Except.bind]

lemma exists_bind_iff :
    (∃ b, (x >>= f) = .ok b) ↔ ∃ a, x = .ok a ∧ ∃ b, f a = .ok b := by
  cases x <;> simp [bind, Except.bind]

section

variable {step : α → Except ε β} {l : List α}

/-- All steps succeed exactly if each of them does. -/
lemma mapM_eq_ok_iff {results : List β} :
    l.mapM step = .ok results ↔ List.Forall₂ (fun a b => step a = .ok b) l results := by
  induction l generalizing results with
  | nil =>
    rw [List.mapM_nil, List.forall₂_nil_left_iff]
    exact ⟨fun h => (Except.ok.inj h).symm, fun h => by rw [h]; rfl⟩
  | cons a rest ih =>
    rw [List.mapM_cons, List.forall₂_cons_left_iff, bind_eq_ok_iff]
    constructor
    · rintro ⟨b, hstep, h⟩
      obtain ⟨bs, hrest, h⟩ := bind_eq_ok_iff.1 h
      cases h
      exact ⟨b, bs, hstep, ih.1 hrest, rfl⟩
    · rintro ⟨b, bs, hstep, hrest, rfl⟩
      exact ⟨b, hstep, bind_eq_ok_iff.2 ⟨bs, ih.2 hrest, rfl⟩⟩

/-- The steps fail with the fault of the first that fails. -/
lemma mapM_eq_error_iff :
    l.mapM step = .error e ↔ ∃ before a after, l = before ++ a :: after ∧
      (∀ x ∈ before, ∃ b, step x = .ok b) ∧ step a = .error e := by
  induction l with
  | nil =>
    constructor
    · intro h
      cases h
    · rintro ⟨before, a, after, hl, -⟩
      simp at hl
  | cons a rest ih =>
    rw [List.mapM_cons, bind_eq_error_iff]
    constructor
    · rintro (hstep | ⟨b, hstep, h⟩)
      · exact ⟨[], a, rest, rfl, List.forall_mem_nil _, hstep⟩
      · rcases bind_eq_error_iff.1 h with hrest | ⟨bs, -, h⟩
        · obtain ⟨before, x, after, rfl, hbefore, hx⟩ := ih.1 hrest
          exact ⟨a :: before, x, after, rfl, List.forall_mem_cons.2 ⟨⟨b, hstep⟩, hbefore⟩, hx⟩
        · cases h
    · rintro ⟨before, x, after, hl, hbefore, hx⟩
      cases before with
      | nil =>
        obtain ⟨rfl, -⟩ := List.cons.inj hl
        exact .inl hx
      | cons y before =>
        obtain ⟨rfl, rfl⟩ := List.cons.inj hl
        obtain ⟨⟨b, hb⟩, hbefore⟩ := List.forall_mem_cons.1 hbefore
        have hrest := ih.2 ⟨before, x, after, rfl, hbefore, hx⟩
        exact .inr ⟨b, hb, bind_eq_error_iff.2 (.inl hrest)⟩

end

end TreeLint.Except
