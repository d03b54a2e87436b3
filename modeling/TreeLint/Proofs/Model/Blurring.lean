/-
Types of which less is known.

A resolver may know less about a program: any type that it found may be the dynamic
type instead, as a whole or as a type argument.  `Ty.BlursTo` relates a type to what it
may become, and `Element.BlursTo` an element to the same element with such types.

A type that is blurred keeps its class or becomes dynamic.  So what is known to be a
core class was known to be it before (`Ty.BlursTo.of_classifyCoreClass`), and the calls
of an executable bind their arguments to the same parameters, blurred
(`Executable.BlursTo.named?`, `Executable.BlursTo.positional`).
-/
import Mathlib.Data.List.Forall2
import TreeLint.Model.Element
import TreeLint.Model.Supertype
namespace TreeLint

/-! ### Lists that correspond member by member -/

section Lists

variable {α β : Type} {R : α → β → Prop} {l : List α} {l' : List β}

lemma rel_find? {p : α → Bool} {q : β → Bool} (hpq : ∀ a b, R a b → q b = p a)
    (h : List.Forall₂ R l l') : Option.Rel R (l.find? p) (l'.find? q) := by
  induction h with
  | nil => exact .none
  | @cons a b rest rest' hab hrest ih =>
    rw [List.find?_cons, List.find?_cons, hpq a b hab]
    cases p a with
    | true => exact .some hab
    | false => exact ih

lemma rel_getElem? (h : List.Forall₂ R l l') (i : Nat) : Option.Rel R l[i]? l'[i]? := by
  induction h generalizing i with
  | nil => exact .none
  | cons hab hrest ih =>
    cases i with
    | zero => exact .some hab
    | succ i => exact ih i

end Lists

/-! ### Types -/

/-- A type becomes another one when it, or some of its type arguments, become dynamic. -/
inductive Ty.BlursTo : Ty → Ty → Prop
  /-- A type may stay as it is. -/
  | refl (t : Ty) : BlursTo t t
  /-- A type may become dynamic. -/
  | dynamic (t : Ty) : BlursTo t .dynamic
  /-- The type arguments may be blurred. -/
  | interface (cls : ClassId) {arguments arguments' : List Ty}
    (h : List.Forall₂ BlursTo arguments arguments') :
    BlursTo (.interface cls arguments) (.interface cls arguments')

namespace Ty.BlursTo

variable {h : Hierarchy} {t t' : Ty}

/-- A type that is blurred becomes dynamic or keeps its class. -/
lemma eq_dynamic_or (ht : t.BlursTo t') :
    t' = .dynamic ∨ (t'.isVague = t.isVague ∧ t'.class? = t.class?) := by
  cases ht with
  | refl => exact .inr ⟨rfl, rfl⟩
  | dynamic => exact .inl rfl
  | interface cls => exact .inr ⟨rfl, rfl⟩

/-- What is known to be a core class was known to be it before the type was blurred. -/
lemma of_classifyCoreClass (ht : t.BlursTo t') {name : String}
    (hyes : h.classifyCoreClass t' name = .yes) : h.classifyCoreClass t name = .yes := by
  rcases ht.eq_dynamic_or with rfl | ⟨hvague, hclass⟩
  · cases hyes
  · rwa [Hierarchy.classifyCoreClass, Hierarchy.isCoreClass, hvague, hclass] at hyes

/-- The only type argument is blurred as well, or nothing is known about it any more. -/
lemma soleArgument (ht : t.BlursTo t') :
    t'.soleArgument = .unresolved ∨ t.soleArgument.BlursTo t'.soleArgument := by
  cases ht with
  | refl => exact .inr (.refl _)
  | dynamic => exact .inl rfl
  | interface cls harguments =>
    cases harguments with
    | nil => exact .inl rfl
    | cons hfirst hrest =>
      cases hrest with
      | nil => exact .inr hfirst
      | cons => exact .inl rfl

/-- The type of something that may be missing, and then is unresolved, is blurred. -/
lemma getD {α : Type} {R : α → α → Prop} {type : α → Ty} {a b : Option α}
    (htype : ∀ x y, R x y → (type x).BlursTo (type y)) (h : Option.Rel R a b) :
    ((a.map type).getD .unresolved).BlursTo ((b.map type).getD .unresolved) := by
  cases h with
  | none => exact .refl _
  | some h => exact htype _ _ h

end Ty.BlursTo

/-! ### Elements -/

/-- A parameter becomes another one when its type is blurred. -/
structure Parameter.BlursTo (p p' : Parameter) : Prop where
  key : p'.key = p.key
  name : p'.name = p.name
  type : p.type.BlursTo p'.type
  kind : p'.kind = p.kind

/-- An executable becomes another one when its types are blurred. -/
structure Executable.BlursTo (e e' : Executable) : Prop where
  key : e'.key = e.key
  name : e'.name = e.name
  parameters : List.Forall₂ Parameter.BlursTo e.parameters e'.parameters
  returnType : e.returnType.BlursTo e'.returnType
  enclosing : e'.enclosing = e.enclosing

/-- A variable becomes another one when its type is blurred. -/
structure Variable.BlursTo (v v' : Variable) : Prop where
  key : v'.key = v.key
  name : v'.name = v.name
  type : v.type.BlursTo v'.type
  enclosing : v'.enclosing = v.enclosing

/-- An element becomes another one when its types are blurred. -/
inductive Element.BlursTo : Element → Element → Prop
  /-- A class has no types to blur. -/
  | ofClass (cls : ClassId) : BlursTo (.ofClass cls) (.ofClass cls)
  /-- The types of an executable may be blurred. -/
  | ofExecutable {e e' : Executable} (h : e.BlursTo e') : BlursTo (.executable e) (.executable e')
  /-- The type of a parameter may be blurred. -/
  | ofParameter {p p' : Parameter} (h : p.BlursTo p') : BlursTo (.parameter p) (.parameter p')
  /-- The type of a variable may be blurred. -/
  | ofVariable {v v' : Variable} (h : v.BlursTo v') : BlursTo (.variable v) (.variable v')

namespace Executable.BlursTo

variable {e e' : Executable}

/-- The first named parameter of a name is the same one. -/
lemma named? (h : e.BlursTo e') (name : String) :
    Option.Rel Parameter.BlursTo (e.named? name) (e'.named? name) := by
  refine rel_find? (fun p p' hp => ?_) h.parameters
  rw [Parameter.isNamed, Parameter.isNamed, hp.kind, hp.name]

/-- The positional parameters are the same ones, in the same order. -/
lemma positional (h : e.BlursTo e') :
    List.Forall₂ Parameter.BlursTo e.positional e'.positional := by
  refine List.rel_filter (fun p p' hp => ?_) h.parameters
  simp only [Parameter.isNamed, hp.kind]

end Executable.BlursTo

namespace Element.BlursTo

variable {e e' : Element}

lemma type (h : e.BlursTo e') : e.type.BlursTo e'.type := by
  cases h with
  | ofClass cls => exact .refl _
  | ofExecutable h => exact .refl _
  | ofParameter h => exact h.type
  | ofVariable h => exact h.type

lemma enclosingType_eq (h : e.BlursTo e') : e'.enclosingType = e.enclosingType := by
  cases h with
  | ofClass cls => rfl
  | ofExecutable h => exact congrArg (Option.map Ty.ofClass) h.enclosing
  | ofParameter h => rfl
  | ofVariable h => exact congrArg (Option.map Ty.ofClass) h.enclosing

lemma executable? (h : e.BlursTo e') :
    Option.Rel Executable.BlursTo e.executable? e'.executable? := by
  cases h with
  | ofExecutable h => exact .some h
  | _ => exact .none

end Element.BlursTo

end TreeLint
