/-
The format that programs use is lawful.

A part of a content counts as present if its value does, and it has entries if its value is
a mapping, with the same keys.  Only the first step of unfolding the part is looked at.
-/
import Mathlib.Data.List.Basic
import TreeLint.Yaml.Format
namespace TreeLint.Yaml

variable {c : Content} {place : Place} {p : Part}

/-- What the value at a place is made of. -/
lemma valueAt_eq (c : Content) (place : Place) :
    c.valueAt place = match c.cellAt place with
      | .scalar v => v
      | .set members => .set (Value.shownOrder members)
      | .list items => .list (items.map (c.unfold (c.cells.length + 1) [place]))
      | .mapping entries =>
        .mapping (entries.map fun e => (e.1, c.unfold (c.cells.length + 1) [place] e.2))
      | .pairs entries => .list (entries.map fun e =>
        .pair (c.unfold (c.cells.length + 1) [place] e.1)
          (c.unfold (c.cells.length + 1) [place] e.2)) := by
  rw [Content.valueAt, Content.unfold]
  rcases c.cellAt place with v | items | entries | members | entries <;> rfl

/-- A place counts as its value does. -/
lemma isTruthy_valueAt (c : Content) (place : Place) :
    (c.valueAt place).isTruthy = (c.cellAt place).isPresent := by
  rw [valueAt_eq]
  rcases c.cellAt place with v | items | entries | members | entries
  case set =>
    have hlength := (Value.shownOrder_perm members).length_eq
    show (!(Value.shownOrder members).isEmpty) = !members.isEmpty
    rw [Bool.not_inj_iff, Bool.eq_iff_iff, List.isEmpty_iff_length_eq_zero, hlength,
      List.isEmpty_iff_length_eq_zero]
  all_goals simp [Value.isTruthy, Cell.isPresent]

/-- A part of what a text stands for has the value of its cell. -/
lemma exists_value_of_entries? {parts : List (Value × Part)} (h : p.entries? = some parts) :
    ∃ entries, p.value = .mapping entries ∧ entries.map (·.1) = parts.map (·.1) := by
  obtain ⟨content, place⟩ := p
  unfold Part.entries? at h
  split at h
  · next entries hcell =>
    cases h
    rcases place with _ | place
    · cases hcell
    · have hcell : content.cellAt place = .mapping entries := hcell
      refine ⟨_, (valueAt_eq content place).trans (by rw [hcell]), ?_⟩
      simp
  · cases h

section

variable [Machine]

@[simp] lemma read_format (text : String) : format.read text = Part.read text := rfl

@[simp] lemma write_format (entries : List (Value × Value)) :
    format.write entries = write entries := rfl

theorem lawful_format : format.Lawful where
  isPresent := fun p => by
    rcases p with ⟨content, _ | place⟩
    · rfl
    · exact (isTruthy_valueAt content place).symm
  entries := fun _ _ => exists_value_of_entries?

end

end TreeLint.Yaml
