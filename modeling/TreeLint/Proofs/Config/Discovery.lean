/-
The nearest configuration file.

The search looks into a directory and, if it finds nothing there, goes on to the one
around it; the root is the directory that is around itself, and it is still looked into
(`nearestFile?_step`).  So the search passes exactly the directories on the way to the
root, the deepest first, and what it finds is the file of the deepest of them that
holds one, under the preferred name (`nearestFile?_law`).

A path is the names on the way to its place, so the search from the path of a directory
finds the path of that file (`discover_pathOf`).
-/
import Mathlib.Data.List.Basic
import Mathlib.Data.List.Find
import Mathlib.Data.List.Induction
import TreeLint.Config.File
namespace TreeLint

/-! ### Paths of places -/

namespace FileTree

/-- Whether a text is the name of a file or directory: it leads to one place, and it is one name. -/
structure IsName (name : String) : Prop where
  ne_empty : name ≠ ""
  ne_dot : name ≠ "."
  ne_dots : name ≠ ".."
  slash_not_mem : '/' ∉ name.toList

variable {place : List String}

lemma toList_pathOf (place : List String) :
    (pathOf place).toList = ['/'].intercalate (place.map String.toList) :=
  String.toList_intercalate

lemma isAbsolute_pathOf (h : ∀ name ∈ place, IsName name) : isAbsolute (pathOf place) = false := by
  cases place with
  | nil => rfl
  | cons name rest =>
    have hname := h name List.mem_cons_self
    obtain ⟨c, cs, hcs⟩ := List.exists_cons_of_ne_nil
      (mt String.toList_eq_nil_iff.1 hname.ne_empty)
    have hc : c ≠ '/' := fun hc => hname.slash_not_mem (by rw [hcs, hc]; exact List.mem_cons_self)
    rw [isAbsolute, toList_pathOf]
    cases rest <;> simp [hcs, hc]

lemma namesIn_pathOf (h : ∀ name ∈ place, IsName name) (hne : place ≠ []) :
    namesIn (pathOf place) = place := by
  have hslash : ∀ cs ∈ place.map String.toList, '/' ∉ cs := by
    intro cs hcs
    obtain ⟨name, hname, rfl⟩ := List.mem_map.1 hcs
    exact (h name hname).slash_not_mem
  rw [namesIn, toList_pathOf, List.splitOn_intercalate '/' hslash (by simpa using hne),
    List.map_map]
  exact (List.map_congr_left fun name _ => String.ofList_toList).trans (List.map_id place)

/-- The path of a place leads to it. -/
lemma placeOf?_pathOf (h : ∀ name ∈ place, IsName name) : placeOf? (pathOf place) = some place := by
  by_cases hne : place = []
  · subst hne
    rfl
  rw [placeOf?, isAbsolute_pathOf h, namesIn_pathOf h hne, if_neg Bool.false_ne_true]
  -- every name is put behind those that have been passed
  suffices hpass : ∀ passed : List String, place.foldlM (fun place name =>
      if isHere name then some place
      else if name == ".." then (if place.isEmpty then none else some place.dropLast)
      else some (place ++ [name])) passed = some (passed ++ place) from hpass []
  clear hne
  induction place with
  | nil => simp
  | cons name rest ih =>
    intro passed
    obtain ⟨hname, hrest⟩ := List.forall_mem_cons.1 h
    have hhere : isHere name = false := by simp [isHere, hname.ne_empty, hname.ne_dot]
    have hdots : (name == "..") = false := by simp [hname.ne_dots]
    rw [List.foldlM_cons, hhere, hdots]
    simpa using ih hrest (passed ++ [name])

end FileTree

namespace Config

variable {present : List String → Bool} {start d file : List String} {name : String}

/-! ### One directory -/

/-- Whether a directory holds a configuration file. -/
def HoldsFile (present : List String → Bool) (d : List String) : Prop :=
  ∃ name ∈ fileNames, present (d ++ [name]) = true

/-- Whether a name is the first of those under which a directory holds a configuration file. -/
def IsPreferred (present : List String → Bool) (d : List String) (name : String) : Prop :=
  ∃ better others, fileNames = better ++ name :: others ∧ present (d ++ [name]) = true ∧
    ∀ n ∈ better, present (d ++ [n]) = false

lemma fileIn?_eq_some_iff : fileIn? present d = some file ↔
    ∃ name, file = d ++ [name] ∧ IsPreferred present d name := by
  rw [fileIn?, List.find?_map, Option.map_eq_some_iff]
  refine exists_congr fun name => ?_
  rw [List.find?_eq_some_iff_append, and_comm, eq_comm (a := file)]
  refine and_congr_right fun _ => ?_
  simp only [Function.comp_apply, Bool.not_eq_true']
  constructor
  · rintro ⟨hname, better, others, hall, hbetter⟩
    exact ⟨better, others, hall, hname, hbetter⟩
  · rintro ⟨better, others, hall, hname, hbetter⟩
    exact ⟨hname, better, others, hall, hbetter⟩

lemma fileIn?_eq_none_iff : fileIn? present d = none ↔ ¬HoldsFile present d := by
  simp [fileIn?, HoldsFile]

lemma fileIn?_congr {present' : List String → Bool}
    (h : ∀ name ∈ fileNames, present' (d ++ [name]) = present (d ++ [name])) :
    fileIn? present' d = fileIn? present d := by
  rw [fileIn?, fileIn?, List.find?_map, List.find?_map]
  exact congrArg _ (List.find?_congr h)

/-! ### The way to the root -/

lemma upwards_concat (place : List String) (name : String) :
    upwards (place ++ [name]) = (place ++ [name]) :: upwards place := by
  induction place with
  | nil => rfl
  | cons first rest ih => simp [upwards, ih]

/-- The search looks into a directory and goes on to the one around it, unless that is the same. -/
lemma nearestFile?_step (present : List String → Bool) (start : List String) :
    nearestFile? present start = (fileIn? present start).or
      (if start.dropLast = start then none else nearestFile? present start.dropLast) := by
  rcases List.eq_nil_or_concat' start with rfl | ⟨place, name, rfl⟩
  · rcases h : fileIn? present [] <;> simp [nearestFile?, upwards, h]
  · rw [List.dropLast_concat, if_neg (by simp)]
    rcases h : fileIn? present (place ++ [name]) <;>
      simp [nearestFile?, upwards_concat, h]

lemma nearestFile?_root : nearestFile? present [] = fileIn? present [] := by
  rw [nearestFile?_step, List.dropLast_nil, if_pos rfl, Option.or_none]

lemma nearestFile?_concat : nearestFile? present (start ++ [name]) =
    (fileIn? present (start ++ [name])).or (nearestFile? present start) := by
  rw [nearestFile?_step, List.dropLast_concat, if_neg (by simp)]

/-- Whether a directory is the nearest to a place, on the way to the root, that holds a
configuration file: all others that do lie around it. -/
structure IsNearest (present : List String → Bool) (start d : List String) : Prop where
  onWay : d <+: start
  holds : HoldsFile present d
  deepest : ∀ e, e <+: start → HoldsFile present e → e <+: d

lemma isNearest_self (h : HoldsFile present start) : IsNearest present start d ↔ d = start := by
  constructor
  · intro hd
    exact hd.onWay.eq_of_length_le (hd.deepest start (List.prefix_refl _) h).length_le
  · rintro rfl
    exact ⟨List.prefix_refl _, h, fun e he _ => he⟩

/-- A directory without configuration file is passed. -/
lemma isNearest_concat_iff (h : ¬HoldsFile present (start ++ [name])) :
    IsNearest present (start ++ [name]) d ↔ IsNearest present start d := by
  have hway : ∀ e, HoldsFile present e → (e <+: start ++ [name] ↔ e <+: start) := by
    intro e he
    rw [List.prefix_concat_iff, or_iff_right]
    rintro rfl
    exact h he
  constructor
  · intro hd
    exact ⟨(hway d hd.holds).1 hd.onWay, hd.holds, fun e hway' he =>
      hd.deepest e ((hway e he).2 hway') he⟩
  · intro hd
    exact ⟨(hway d hd.holds).2 hd.onWay, hd.holds, fun e hway' he =>
      hd.deepest e ((hway e he).1 hway') he⟩

lemma nearestFile?_eq_some_iff : nearestFile? present start = some file ↔
    ∃ d name, file = d ++ [name] ∧ IsNearest present start d ∧ IsPreferred present d name := by
  -- in a directory with a configuration file the search ends, and goes on from any other
  have hends : ∀ start, HoldsFile present start → (fileIn? present start = some file ↔
      ∃ d name, file = d ++ [name] ∧ IsNearest present start d ∧ IsPreferred present d name) := by
    intro start h
    rw [fileIn?_eq_some_iff]
    simp only [isNearest_self h, exists_and_left, and_left_comm, exists_eq_left]
  induction start using List.reverseRecOn with
  | nil =>
    rw [nearestFile?_root]
    by_cases h : HoldsFile present []
    · exact hends [] h
    · rw [fileIn?_eq_none_iff.2 h]
      refine iff_of_false (Option.some_ne_none file).symm ?_
      rintro ⟨d, -, -, hd, -⟩
      exact h (List.prefix_nil.1 hd.onWay ▸ hd.holds)
  | append_singleton start name ih =>
    rw [nearestFile?_concat]
    by_cases h : HoldsFile present (start ++ [name])
    · obtain ⟨found, hfound⟩ :=
        Option.ne_none_iff_exists'.1 (mt fileIn?_eq_none_iff.1 (not_not.2 h))
      rw [hfound, Option.some_or, ← hfound, hends _ h]
    · rw [fileIn?_eq_none_iff.2 h, Option.none_or]
      simp only [isNearest_concat_iff h]
      exact ih

lemma nearestFile?_eq_none_iff : nearestFile? present start = none ↔
    ∀ d, d <+: start → ¬HoldsFile present d := by
  induction start using List.reverseRecOn with
  | nil => simp [nearestFile?_root, fileIn?_eq_none_iff]
  | append_singleton start name ih =>
    rw [nearestFile?_concat, Option.or_eq_none_iff, fileIn?_eq_none_iff, ih]
    simp only [List.prefix_concat_iff, or_imp, forall_and, forall_eq]

/-- The search depends on the directories on the way to the root alone. -/
lemma nearestFile?_congr {present' : List String → Bool}
    (h : ∀ d, d <+: start → ∀ name ∈ fileNames, present' (d ++ [name]) = present (d ++ [name])) :
    nearestFile? present' start = nearestFile? present start := by
  induction start using List.reverseRecOn with
  | nil => rw [nearestFile?_root, nearestFile?_root, fileIn?_congr (h [] (List.prefix_refl _))]
  | append_singleton start name ih =>
    rw [nearestFile?_concat, nearestFile?_concat, fileIn?_congr (h _ (List.prefix_refl _)),
      ih fun d hd => h d (hd.trans (List.prefix_append _ _))]

/-- The search from the path of a directory finds the path of the file. -/
lemma discover_pathOf (files : FileTree) (h : ∀ name ∈ start, FileTree.IsName name) :
    discover files (FileTree.pathOf start) =
      (nearestFile? files.has start).map FileTree.pathOf := by
  rw [discover, FileTree.placeOf?_pathOf h]
  rfl

/-- The search from a directory finds the configuration file in the deepest directory on the way to
the root, the root included, that holds one, under the name that is preferred there; it finds none
exactly if no directory on the way holds one, and what stands elsewhere never counts.  From the
path of a directory it finds the path of that file. -/
theorem nearestFile?_law (present : List String → Bool) (start : List String) :
    (∀ file, nearestFile? present start = some file ↔
      ∃ d name, file = d ++ [name] ∧ IsNearest present start d ∧ IsPreferred present d name) ∧
    (nearestFile? present start = none ↔ ∀ d, d <+: start → ¬HoldsFile present d) ∧
    (∀ present' : List String → Bool,
      (∀ d, d <+: start → ∀ name ∈ fileNames, present' (d ++ [name]) = present (d ++ [name])) →
      nearestFile? present' start = nearestFile? present start) ∧
    ∀ files : FileTree, (∀ name ∈ start, FileTree.IsName name) →
      discover files (FileTree.pathOf start) =
        (nearestFile? files.has start).map FileTree.pathOf :=
  ⟨fun _ => nearestFile?_eq_some_iff, nearestFile?_eq_none_iff, fun _ h => nearestFile?_congr h,
    fun files h => discover_pathOf files h⟩

end Config

end TreeLint
