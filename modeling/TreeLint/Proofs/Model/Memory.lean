/-
The memory of answers about the hierarchy.

Every question about supertypes looks into the memory first and adds to it, so
what it answers could depend on the questions before it.  It does not:
`Supertypes.Sound` says that each remembered answer is the one that a fresh search
gives, an empty memory is sound, and a question keeps a sound memory sound and is
answered as by a fresh search.
-/
import Mathlib.Tactic.Common
import TreeLint.Model.Supertype
namespace TreeLint

/-- Whether a type is, or extends, mixes in or implements, a class of a name and library, as a
search through the hierarchy finds it. -/
def Hierarchy.extends (h : Hierarchy) (type : Ty) (name library : String) : Bool :=
  match type with
  | .interface cls _ => h.search cls name library
  | _ => false

namespace Supertypes

/-- A memory is sound if every answer in it is the one that a fresh search gives. -/
def Sound (s : Supertypes) : Prop :=
  ∀ key answer, s.answerTo? key = some answer →
    answer = s.hierarchy.search key.cls key.name key.library

lemma sound_empty (h : Hierarchy) : Sound ⟨h, []⟩ := by
  intro key answer hget
  simp [answerTo?] at hget

/-- A memory stays sound when the answer of a fresh search is added to it. -/
lemma Sound.remember {s : Supertypes} (hs : s.Sound) (key : SupertypeKey) :
    Sound { s with
      answers := (key, s.hierarchy.search key.cls key.name key.library) :: s.answers } := by
  intro other answer hget
  by_cases hkey : other = key
  · subst hkey
    simp only [answerTo?, List.lookup_cons_self, Option.some.injEq] at hget
    exact hget.symm
  · have hne : (other == key) = false := by simpa using hkey
    simp only [answerTo?, List.lookup_cons, hne] at hget
    exact hs other answer hget

/-- With a sound memory, a question is answered as by a fresh search. -/
lemma Sound.extendsClass_fst {s : Supertypes} (hs : s.Sound) (type : Ty) (name library : String) :
    (s.extendsClass type name library).1 = s.hierarchy.extends type name library := by
  cases type with
  | unresolved => rfl
  | dynamic => rfl
  | interface cls arguments =>
    simp only [extendsClass, Hierarchy.extends]
    split
    · next answer hget => exact hs _ _ hget
    · rfl

/-- A question changes nothing about the classes. -/
@[simp] lemma hierarchy_extendsClass (s : Supertypes) (type : Ty) (name library : String) :
    (s.extendsClass type name library).2.hierarchy = s.hierarchy := by
  cases type with
  | unresolved => rfl
  | dynamic => rfl
  | interface cls arguments =>
    simp only [extendsClass]
    split <;> rfl

/-- A question keeps a sound memory sound. -/
lemma Sound.extendsClass {s : Supertypes} (hs : s.Sound) (type : Ty) (name library : String) :
    (s.extendsClass type name library).2.Sound := by
  cases type with
  | unresolved => exact hs
  | dynamic => exact hs
  | interface cls arguments =>
    simp only [Supertypes.extendsClass]
    split
    · exact hs
    · exact hs.remember ⟨cls, name, library⟩

end Supertypes

end TreeLint
