/-
The search through the hierarchy finds what can be reached.

From a class one gets to the classes that it extends, mixes in or implements, and
from these further on; there may be cycles.  `Hierarchy.ReachesNamed` says that a
class of a name and library is met on the way.

Every class is looked at once, so each search comes to its end and has an answer.  A
search that succeeds has met a class of the name and library.  A search that fails
without having met a malformed class has looked at everything that can be reached:
what was looked at is not the class looked for, and leads to nothing but what was
looked at or is still to be looked at (`Hierarchy.Explored`).  As the memory gives
the answers of a search whatever was asked before, this is also what a question
about supertypes tells: `Supertypes.extendsClass_iff_reaches`.
-/
import Mathlib.Logic.Relation
import TreeLint.Proofs.Model.Memory
namespace TreeLint

namespace ClassDecl

/-- Whether a declaration lists both what the class mixes in and what it implements. -/
def IsWellFormed (c : ClassDecl) : Prop := c.mixins.isSome ∧ c.interfaces.isSome

/-- Whether a class is among those that a declaration extends, mixes in or implements. -/
def Lists (c : ClassDecl) (d : ClassId) : Prop :=
  ∃ type : Ty, type.class? = some d ∧
    (type = c.superclass ∨ type ∈ c.mixins.getD [] ∨ type ∈ c.interfaces.getD [])

variable {c : ClassDecl}

lemma exists_superclasses (h : c.IsWellFormed) : ∃ above, c.superclasses = some above := by
  obtain ⟨hmixins, hinterfaces⟩ := h
  obtain ⟨mixins, hm⟩ := Option.isSome_iff_exists.1 hmixins
  obtain ⟨interfaces, hi⟩ := Option.isSome_iff_exists.1 hinterfaces
  rw [superclasses, supertypes, hm, hi]
  exact ⟨_, rfl⟩

lemma mem_superclasses_iff {above : List ClassId} (h : c.superclasses = some above) (d : ClassId) :
    d ∈ above ↔ c.Lists d := by
  obtain ⟨types, htypes, rfl⟩ := Option.map_eq_some_iff.1 h
  rw [supertypes] at htypes
  split at htypes
  · next mixins interfaces hm hi =>
    cases htypes
    rw [List.mem_filterMap]
    refine exists_congr fun type => ?_
    rw [and_comm, and_congr_right_iff, hm, hi, List.mem_append, List.mem_append, or_assoc]
    intro hclass
    -- an unresolved superclass is not listed, but it has no class either
    refine or_congr_left ?_
    split
    · next hnone =>
      simp only [List.not_mem_nil, false_iff]
      rintro rfl
      rw [hnone] at hclass
      cases hclass
    · exact List.mem_singleton
  · cases htypes

end ClassDecl

namespace Hierarchy

/-- Whether a class extends, mixes in or implements another one directly. -/
def DirectlyAbove (h : Hierarchy) (c d : ClassId) : Prop :=
  ∃ decl, h.get? c = some decl ∧ decl.Lists d

/-- Whether one gets from a class to another one, or stays at it. -/
def Reaches (h : Hierarchy) : ClassId → ClassId → Prop := Relation.ReflTransGen h.DirectlyAbove

/-- Whether the class at a place has a name and stands in a library. -/
def IsNamed (h : Hierarchy) (name library : String) (c : ClassId) : Prop :=
  ∃ decl, h.get? c = some decl ∧ decl.name = name ∧ decl.library = library

/-- Whether one gets from a class to one of a name and library. -/
def ReachesNamed (h : Hierarchy) (c : ClassId) (name library : String) : Prop :=
  ∃ d, h.Reaches c d ∧ h.IsNamed name library d

/-- Whether one gets from a class to no malformed one. -/
def ReachesOnlyWellFormed (h : Hierarchy) (c : ClassId) : Prop :=
  ∀ d decl, h.Reaches c d → h.get? d = some decl → decl.IsWellFormed

variable {h : Hierarchy} {name library : String}

lemma isNamed_iff {c : ClassId} {decl : ClassDecl} (hget : h.get? c = some decl) :
    h.IsNamed name library c ↔ decl.isNamed name library = true := by
  rw [ClassDecl.isNamed, Bool.and_eq_true, beq_iff_eq, beq_iff_eq]
  constructor
  · rintro ⟨decl', hget', hnamed⟩
    rw [hget] at hget'
    cases hget'
    exact hnamed
  · exact fun hnamed => ⟨decl, hget, hnamed⟩

lemma directlyAbove_of_mem {c d : ClassId} {decl : ClassDecl} {above : List ClassId}
    (hget : h.get? c = some decl) (habove : decl.superclasses = some above) (hd : d ∈ above) :
    h.DirectlyAbove c d :=
  ⟨decl, hget, (ClassDecl.mem_superclasses_iff habove d).1 hd⟩

/-! ### A search that succeeds -/

/-- A search succeeds only if one gets from a class on the stack to one of the name and library. -/
lemma exists_reachesNamed_of_searchFrom {stack seen : List ClassId}
    (hsearch : h.searchFrom name library stack seen = true) :
    ∃ c ∈ stack, h.ReachesNamed c name library := by
  fun_induction searchFrom h name library stack seen with
  | case1 seen => cases hsearch
  | case2 seen c rest hs ih =>
    obtain ⟨d, hd, hreach⟩ := ih hsearch
    exact ⟨d, List.mem_cons_of_mem _ hd, hreach⟩
  | case3 seen c rest hs hg ih =>
    obtain ⟨d, hd, hreach⟩ := ih hsearch
    exact ⟨d, List.mem_cons_of_mem _ hd, hreach⟩
  | case4 seen c rest hs decl hg hnamed =>
    exact ⟨c, List.mem_cons_self, c, .refl, (isNamed_iff hg).2 hnamed⟩
  | case5 seen c rest hs decl hg hnamed habove => cases hsearch
  | case6 seen c rest hs decl hg hnamed above habove hlt ih =>
    obtain ⟨d, hd, e, hreach, he⟩ := ih hsearch
    rcases List.mem_append.1 hd with hd | hd
    -- a class that was put on the stack stands directly above the one looked at
    · have hstep := directlyAbove_of_mem hg habove (List.mem_reverse.1 hd)
      exact ⟨c, List.mem_cons_self, e, .head hstep hreach, he⟩
    · exact ⟨d, List.mem_cons_of_mem _ hd, e, hreach, he⟩

/-! ### A search that fails -/

/-- What was looked at is not the class looked for, and leads to nothing but what was looked at, or
is still to be looked at, or is not in the table. -/
structure Explored (h : Hierarchy) (name library : String) (stack seen : List ClassId) : Prop where
  passed : ∀ c ∈ seen, ¬ h.IsNamed name library c
  closed : ∀ c ∈ seen, ∀ d, h.DirectlyAbove c d → d ∈ seen ∨ d ∈ stack ∨ h.get? d = none

namespace Explored

variable {stack seen rest : List ClassId} {c : ClassId}

/-- When nothing is left to be looked at, everything that can be reached was looked at. -/
lemma not_reachesNamed (hex : h.Explored name library [] seen) (hc : c ∈ seen) :
    ¬ h.ReachesNamed c name library := by
  rintro ⟨d, hreach, hnamed⟩
  -- no step leads out of what was looked at but to places that are not in the table
  have hall : ∀ e, h.Reaches c e → e ∈ seen ∨ h.get? e = none := by
    intro e he
    induction he with
    | refl => exact .inl hc
    | tail _ hstep ih =>
      rcases ih with hmem | hnone
      · exact (hex.closed _ hmem _ hstep).imp_right
          fun hor => hor.resolve_left List.not_mem_nil
      · obtain ⟨decl, hget, -⟩ := hstep
        rw [hnone] at hget
        cases hget
  rcases hall d hreach with hmem | hnone
  · exact hex.passed d hmem hnamed
  · obtain ⟨decl, hget, -⟩ := hnamed
    rw [hnone] at hget
    cases hget

/-- A class that was looked at before, or is not in the table, can be left out. -/
lemma skip (hex : h.Explored name library (c :: rest) seen) (hc : c ∈ seen ∨ h.get? c = none) :
    h.Explored name library rest seen where
  passed := hex.passed
  closed := by
    intro a ha d hd
    rcases hex.closed a ha d hd with hmem | hmem | hnone
    · exact .inl hmem
    · rcases List.mem_cons.1 hmem with rfl | hmem
      · exact hc.imp_right .inr
      · exact .inr (.inl hmem)
    · exact .inr (.inr hnone)

/-- A class that is not the one looked for counts as looked at once the classes directly above it
are to be looked at. -/
lemma push {decl : ClassDecl} {above : List ClassId} (hg : h.get? c = some decl)
    (hnamed : decl.isNamed name library ≠ true) (habove : decl.superclasses = some above)
    (hex : h.Explored name library (c :: rest) seen) :
    h.Explored name library (above.reverse ++ rest) (c :: seen) where
  passed := by
    rw [List.forall_mem_cons]
    exact ⟨fun hc => hnamed ((isNamed_iff hg).1 hc), hex.passed⟩
  closed := by
    rw [List.forall_mem_cons]
    constructor
    · rintro d ⟨decl', hg', hlists⟩
      rw [hg] at hg'
      cases hg'
      have hmem := (ClassDecl.mem_superclasses_iff habove d).2 hlists
      exact .inr (.inl (List.mem_append_left _ (List.mem_reverse.2 hmem)))
    · intro a ha d hd
      rcases hex.closed a ha d hd with hmem | hmem | hnone
      · exact .inl (List.mem_cons_of_mem _ hmem)
      · rcases List.mem_cons.1 hmem with rfl | hmem
        · exact .inl List.mem_cons_self
        · exact .inr (.inl (List.mem_append_right _ hmem))
      · exact .inr (.inr hnone)

end Explored

/-- A search that meets no malformed class fails only if one gets neither from a class on the stack
nor from one that was looked at to one of the name and library. -/
lemma not_reachesNamed_of_searchFrom {stack seen : List ClassId}
    (hwell : ∀ c ∈ stack, h.ReachesOnlyWellFormed c) (hex : h.Explored name library stack seen)
    (hsearch : h.searchFrom name library stack seen = false) {c : ClassId}
    (hc : c ∈ stack ∨ c ∈ seen) : ¬ h.ReachesNamed c name library := by
  fun_induction searchFrom h name library stack seen with
  | case1 seen => exact hex.not_reachesNamed (hc.resolve_left List.not_mem_nil)
  | case2 seen a rest hs ih =>
    have hseen : a ∈ seen := List.contains_iff_mem.1 hs
    refine ih (fun d hd => hwell d (List.mem_cons_of_mem _ hd)) (hex.skip (.inl hseen)) hsearch ?_
    rcases hc with hc | hc
    · rcases List.mem_cons.1 hc with rfl | hc
      · exact .inr hseen
      · exact .inl hc
    · exact .inr hc
  | case3 seen a rest hs hg ih =>
    have hrest := ih (fun d hd => hwell d (List.mem_cons_of_mem _ hd)) (hex.skip (.inr hg)) hsearch
    by_cases hca : c = a
    -- from a place that is not in the table one gets nowhere
    · subst hca
      rintro ⟨d, hreach, decl, hget, -⟩
      rcases Relation.ReflTransGen.cases_head hreach with rfl | ⟨e, ⟨decl', hget', -⟩, -⟩
      · rw [hg] at hget
        cases hget
      · rw [hg] at hget'
        cases hget'
    · exact hrest (hc.imp_left fun hmem => (List.mem_cons.1 hmem).resolve_left hca)
  | case4 seen a rest hs decl hg hnamed => cases hsearch
  -- the search gives up only at a malformed class
  | case5 seen a rest hs decl hg hnamed habove =>
    obtain ⟨above, hsome⟩ :=
      ClassDecl.exists_superclasses (hwell a List.mem_cons_self a decl .refl hg)
    rw [habove] at hsome
    cases hsome
  | case6 seen a rest hs decl hg hnamed above habove hlt ih =>
    refine ih ?_ (hex.push hg hnamed habove) hsearch ?_
    · intro d hd
      rcases List.mem_append.1 hd with hd | hd
      · intro e decl' hreach hget
        have hstep := directlyAbove_of_mem hg habove (List.mem_reverse.1 hd)
        exact hwell a List.mem_cons_self e decl' (.head hstep hreach) hget
      · exact hwell d (List.mem_cons_of_mem _ hd)
    · rcases hc with hc | hc
      · rcases List.mem_cons.1 hc with rfl | hc
        · exact .inr List.mem_cons_self
        · exact .inl (List.mem_append_right _ hc)
      · exact .inr (List.mem_cons_of_mem _ hc)

lemma reachesNamed_of_search {c : ClassId} (hsearch : h.search c name library = true) :
    h.ReachesNamed c name library := by
  obtain ⟨d, hd, hreach⟩ := exists_reachesNamed_of_searchFrom hsearch
  rwa [List.mem_singleton.1 hd] at hreach

/-- Without malformed classes a search finds what can be reached. -/
lemma search_eq_true_iff {c : ClassId} (hwell : h.ReachesOnlyWellFormed c) :
    h.search c name library = true ↔ h.ReachesNamed c name library := by
  refine ⟨reachesNamed_of_search, fun hreach => ?_⟩
  by_contra hne
  rw [Bool.not_eq_true] at hne
  have hex : h.Explored name library [c] [] := ⟨by simp, by simp⟩
  exact not_reachesNamed_of_searchFrom (by simpa using hwell) hex hne (.inl List.mem_cons_self)
    hreach

end Hierarchy

/-! ### Questions with a memory -/

namespace Supertypes

/-- What can be asked of the memory. -/
inductive Request where
  /-- Whether a type extends a class of a name and library. -/
  | extendsClass (type : Ty) (name library : String)
  /-- Whether a type extends one of several classes, as far as the type is known. -/
  | classify (type : Ty) (names : List String) (library : String)
  /-- To forget all answers. -/
  | clear

/-- The memory after a request. -/
def serve (s : Supertypes) : Request → Supertypes
  | .extendsClass type name library => (s.extendsClass type name library).2
  | .classify type names library => (s.classify type names library).2
  | .clear => s.clear

/-- The memory after some requests, one after the other. -/
def serveAll (s : Supertypes) (requests : List Request) : Supertypes := requests.foldl serve s

/-- A question about several classes keeps a sound memory sound, and the classes as they are. -/
lemma Sound.extendsAny {s : Supertypes} (hs : s.Sound) (type : Ty) (library : String)
    (names : List String) :
    (s.extendsAny type library names).2.Sound ∧
      (s.extendsAny type library names).2.hierarchy = s.hierarchy := by
  induction names generalizing s with
  | nil => exact ⟨hs, rfl⟩
  | cons name rest ih =>
    have hsound := hs.extendsClass type name library
    have hsame := s.hierarchy_extendsClass type name library
    rw [Supertypes.extendsAny]
    rcases hanswer : s.extendsClass type name library with ⟨_ | _, s'⟩ <;>
      rw [hanswer] at hsound hsame
    · obtain ⟨hrest, hsame'⟩ := ih hsound
      exact ⟨hrest, hsame'.trans hsame⟩
    · exact ⟨hsound, hsame⟩

/-- A request keeps a sound memory sound, and the classes as they are. -/
lemma Sound.serve {s : Supertypes} (hs : s.Sound) (request : Request) :
    (s.serve request).Sound ∧ (s.serve request).hierarchy = s.hierarchy := by
  cases request with
  | extendsClass type name library =>
    exact ⟨hs.extendsClass type name library, s.hierarchy_extendsClass type name library⟩
  | classify type names library =>
    simp only [Supertypes.serve, Supertypes.classify]
    split
    · exact ⟨hs, rfl⟩
    · exact hs.extendsAny type library names
  | clear => exact ⟨sound_empty s.hierarchy, rfl⟩

lemma Sound.serveAll {s : Supertypes} (hs : s.Sound) (requests : List Request) :
    (s.serveAll requests).Sound ∧ (s.serveAll requests).hierarchy = s.hierarchy := by
  induction requests generalizing s with
  | nil => exact ⟨hs, rfl⟩
  | cons request rest ih =>
    obtain ⟨hstep, hsame⟩ := hs.serve request
    obtain ⟨hrest, hsame'⟩ := ih hstep
    exact ⟨hrest, hsame'.trans hsame⟩

/-- Whatever was asked before, a question is answered as by a fresh search. -/
lemma extendsClass_serveAll (h : Hierarchy) (earlier : List Request) (type : Ty)
    (name library : String) :
    ((serveAll ⟨h, []⟩ earlier).extendsClass type name library).1 =
      h.extends type name library := by
  obtain ⟨hsound, hsame⟩ := (sound_empty h).serveAll earlier
  rw [hsound.extendsClass_fst, hsame]

/-- **A question about supertypes tells what can be reached.**  Whatever was asked before, a class
is said to extend one of a name and library only if one gets from it to such a class; if one gets
from it to no malformed class, this is said exactly then.  What was asked before makes no difference
to the answer, of whatever type it is asked. -/
theorem extendsClass_iff_reaches (h : Hierarchy) (earlier : List Request) (cls : ClassId)
    (arguments : List Ty) (name library : String) :
    let memory := serveAll ⟨h, []⟩ earlier
    let answer := (memory.extendsClass (.interface cls arguments) name library).1
    (answer = true → h.ReachesNamed cls name library) ∧
    (h.ReachesOnlyWellFormed cls → (answer = true ↔ h.ReachesNamed cls name library)) ∧
    ∀ type, (memory.extendsClass type name library).1 =
      (Supertypes.extendsClass ⟨h, []⟩ type name library).1 := by
  intro memory answer
  have hanswer : answer = h.search cls name library :=
    extendsClass_serveAll h earlier (.interface cls arguments) name library
  rw [hanswer]
  refine ⟨Hierarchy.reachesNamed_of_search, Hierarchy.search_eq_true_iff, fun type => ?_⟩
  exact (extendsClass_serveAll h earlier type name library).trans
    (extendsClass_serveAll h [] type name library).symm

/-- Two classes of which the first extends the second, and the second implements the first. -/
def circle : Hierarchy where
  classes := #[
    { id := "first", name := "First", library := "circle", superclass := .ofClass 1 },
    { id := "second", name := "Second", library := "circle", interfaces := some [.ofClass 0] }]

lemma reachesOnlyWellFormed_circle (c : ClassId) : circle.ReachesOnlyWellFormed c := by
  intro d decl _ hget
  match d with
  | 0 | 1 =>
    cases hget
    exact ⟨rfl, rfl⟩
  | n + 2 => cases hget

theorem extendsClass_iff_reaches_circle :
    circle.ReachesOnlyWellFormed 0 ∧
      ((serveAll ⟨circle, []⟩
        [.classify (.ofClass 1) ["Third", "First"] "circle", .clear,
          .extendsClass (.ofClass 0) "Third" "circle"]).extendsClass
            (.ofClass 0) "Second" "circle").1 = true := by
  have hwell := reachesOnlyWellFormed_circle 0
  obtain ⟨-, hiff, -⟩ := extendsClass_iff_reaches circle
    [.classify (.ofClass 1) ["Third", "First"] "circle", .clear,
      .extendsClass (.ofClass 0) "Third" "circle"] 0 [] "Second" "circle"
  have hstep : circle.DirectlyAbove 0 1 := ⟨_, rfl, .ofClass 1, rfl, .inl rfl⟩
  exact ⟨hwell, (hiff hwell).2 ⟨1, .single hstep, _, rfl, rfl, rfl⟩⟩

end Supertypes

end TreeLint
