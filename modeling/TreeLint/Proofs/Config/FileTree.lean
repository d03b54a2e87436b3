/-
Files that have been written.

A file is put at the end of a path, where a file stood before or a name was free.  The
walk along the path passes directories only, and these stay what they were, so the same
path leads to the file afterwards (`find?_of_save`).
-/
import Mathlib.Data.List.Basic
import TreeLint.Config.FileTree
namespace TreeLint.FileTree

variable {t t' : FileTree} {place other : List String} {e : Entry} {w : Walk}
  {name path text : String} {names : List String}

/-! ### Entries -/

@[simp] lemma get?_put_self (hplace : place ≠ []) : (t.put place e).get? place = some e := by
  simp [get?, put, hplace]

lemma get?_put_of_ne (h : other ≠ place) : (t.put place e).get? other = t.get? other := by
  have hlookup : ∀ entries : List (List String × Entry),
      (entries.filter (·.1 != place)).lookup other = entries.lookup other := by
    intro entries
    induction entries with
    | nil => rfl
    | cons entry rest ih =>
      obtain ⟨q, f⟩ := entry
      rw [List.filter_cons]
      split
      · rw [List.lookup_cons, List.lookup_cons, ih]
      · next hq =>
        have hother : (other == q) = false := by
          rw [beq_eq_false_iff_ne]
          rintro rfl
          exact hq (by simpa using h)
        rw [List.lookup_cons, hother, ih]
  have hother : (other == place) = false := by simpa using h
  simp only [get?, put, List.lookup_cons, hother, hlookup]

lemma has_put (hplace : place ≠ []) :
    (t.put place e).has other = (decide (other = place) || t.has other) := by
  by_cases h : other = place
  · subst h
    simp [has, hplace]
  · simp [has, get?_put_of_ne h, h]

/-! ### Walks -/

/-- Where a walk leads after something is put at a place: the name there is not free any more. -/
def Walk.afterPut (place : List String) (w : Walk) : Walk :=
  if w = .free place then .here place else w

lemma afterPut_of_ne (h : w ≠ .free place) : Walk.afterPut place w = w := if_neg h

/-- From everywhere but the place itself a step leads to the same after a file is put there, where
no directory stood. -/
lemma step_put (hplace : place ≠ []) (hget : t.get? place ≠ some .directory)
    (hw : w ≠ .free place) (he : e ≠ .directory) :
    (t.put place e).step w name = Walk.afterPut place (t.step w name) := by
  cases w with
  | here p =>
    by_cases hp : p = place
    · subst hp
      simp [step, hplace, he, hget, Walk.afterPut]
    · simp only [step, get?_put_of_ne hp, has_put hplace]
      repeat' split
      all_goals simp_all [Walk.afterPut]
  | above =>
    simp only [step]
    split <;> rfl
  | _ => rfl

lemma foldl_step_missing : ∀ names : List String, names.foldl t.step .missing = .missing
  | [] => rfl
  | _ :: rest => foldl_step_missing rest

/-- A walk that ends at the place, where no directory stands, ends there too when a file is put
there. -/
lemma foldl_step_put (hplace : place ≠ []) (hget : t.get? place ≠ some .directory)
    (he : e ≠ .directory)
    (h : names.foldl t.step w = .here place ∨ names.foldl t.step w = .free place) :
    names.foldl (t.put place e).step (Walk.afterPut place w) = .here place := by
  induction names generalizing w with
  | nil => rcases h with rfl | rfl <;> simp [Walk.afterPut]
  | cons name rest ih =>
    by_cases hw : w = .free place
    · -- behind a free name nothing is found
      rw [hw, List.foldl_cons] at h
      change rest.foldl t.step .missing = _ ∨ rest.foldl t.step .missing = _ at h
      rw [foldl_step_missing] at h
      rcases h with h | h <;> cases h
    · rw [afterPut_of_ne hw, List.foldl_cons, step_put hplace hget hw he]
      exact ih h

/-- A name that a walk ends at as free stands in a directory, and nothing stands there. -/
lemma of_foldl_step_eq_free (hw : ∀ p, w ≠ .free p) (h : names.foldl t.step w = .free place) :
    place ≠ [] ∧ t.has place = false := by
  rcases names.eq_nil_or_concat with rfl | ⟨outer, name, rfl⟩
  · exact absurd h (hw place)
  rw [List.concat_eq_append, List.foldl_append, List.foldl_cons, List.foldl_nil] at h
  rcases hwalk : outer.foldl t.step w with p | p | _ | _ | _ | _ <;> rw [hwalk] at h
  · simp only [step] at h
    repeat' split at h
    all_goals cases h
    next hfree => exact ⟨by simp, by simpa using hfree⟩
  all_goals
    simp only [step] at h
    repeat' split at h
    all_goals cases h

lemma ne_nil_of_get?_eq_file {held : Option String} (h : t.get? place = some (.file held)) :
    place ≠ [] := by
  rintro rfl
  cases h

/-! ### Writing -/

/-- Where a file is written: a file stands there, or the name is free. -/
lemma writeFile_eq_ok_iff : t.writeFile path text = .ok t' ↔ holdsNull path = false ∧
    ∃ place, t' = t.put place (.file (some text)) ∧
      ((t.walk path = .here place ∧ ∃ held, t.get? place = some (.file held)) ∨
        t.walk path = .free place) := by
  unfold writeFile
  rcases holdsNull path with _ | _
  · rcases hwalk : t.walk path with place | place | _ | _ | _ | _ <;> simp [eq_comm]
    rcases hget : t.get? place with _ | (_ | held) <;> simp
  · simp

/-- What has been written is found. -/
lemma find?_of_writeFile (h : t.writeFile path text = .ok t') :
    t'.find? path = some (.file (some text)) := by
  obtain ⟨-, place, rfl, hends⟩ := writeFile_eq_ok_iff.1 h
  have hwalk : t.walk path = .here place ∨ t.walk path = .free place := hends.imp_left And.left
  have hstart : ∀ p, (if isAbsolute path then Walk.above else .here []) ≠ .free p := by
    intro p
    split <;> exact Walk.noConfusion
  by_cases hempty : path == ""
  · simp [walk, hempty] at hwalk
  by_cases hlong : longestPath < path.utf8ByteSize
  · simp [walk, hempty, hlong] at hwalk
  simp only [walk, if_neg hempty, if_neg hlong] at hwalk hends
  have hplace : place ≠ [] ∧ t.get? place ≠ some .directory := by
    rcases hends with ⟨-, held, hget⟩ | hfree
    · exact ⟨ne_nil_of_get?_eq_file hget, by simp [hget]⟩
    · obtain ⟨hne, hhas⟩ := of_foldl_step_eq_free hstart hfree
      exact ⟨hne, fun hget => by simp [has, hget] at hhas⟩
  have hafter := foldl_step_put (e := .file (some text)) hplace.1 hplace.2 Entry.noConfusion hwalk
  rw [afterPut_of_ne (hstart place)] at hafter
  have hfound : (t.put place (.file (some text))).walk path = .here place := by
    rw [walk, if_neg hempty, if_neg hlong, hafter]
  simp only [find?, hfound]
  exact get?_put_self hplace.1

/-- What has been saved is found, whatever directories were made for it. -/
lemma find?_of_save (h : t.save path text = (t', none)) :
    t'.find? path = some (.file (some text)) := by
  unfold save at h
  rcases hmade : t.makeDirectories (directoryNames path).reverse with ⟨made, _ | problem⟩ <;>
    rw [hmade] at h
  · rcases hwritten : made.writeFile path text with problem | written <;> simp only [hwritten] at h
    · cases h
    · cases h
      exact find?_of_writeFile hwritten
  · cases h

end TreeLint.FileTree
