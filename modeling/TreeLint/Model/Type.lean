/-
Resolved types and the classes they are made of.

Classes stand in a table, the hierarchy, and a type refers to a class by its
place there: two classes are the same only if they are the same entry, whatever
their names.  A type is unresolved, the dynamic type, or a class with type
arguments, each of which may again be unresolved.
-/
namespace TreeLint

/-- The place of a class in the hierarchy. -/
abbrev ClassId := Nat

/-- What the resolver knows about a type. -/
inductive Ty where
  /-- Nothing is known. -/
  | unresolved
  /-- The type whose members are not statically known. -/
  | dynamic
  /-- A class with its type arguments. -/
  | interface (cls : ClassId) (arguments : List Ty)
deriving Repr, Inhabited

namespace Ty

mutual

/-- Types are equal when they have the same class and equal arguments. -/
def decEq : (a b : Ty) → Decidable (a = b)
  | unresolved, unresolved => isTrue rfl
  | dynamic, dynamic => isTrue rfl
  | interface c as, interface d bs =>
    if hc : c = d then
      match decEqList as bs with
      | isTrue h => isTrue (by rw [hc, h])
      | isFalse h => isFalse (by intro e; cases e; exact h rfl)
    else isFalse (by intro e; cases e; exact hc rfl)
  | unresolved, dynamic => isFalse nofun
  | unresolved, interface .. => isFalse nofun
  | dynamic, unresolved => isFalse nofun
  | dynamic, interface .. => isFalse nofun
  | interface .., unresolved => isFalse nofun
  | interface .., dynamic => isFalse nofun

/-- Lists of types are equal when they have equal members. -/
def decEqList : (as bs : List Ty) → Decidable (as = bs)
  | [], [] => isTrue rfl
  | a :: as, b :: bs =>
    match decEq a b, decEqList as bs with
    | isTrue h, isTrue h' => isTrue (by rw [h, h'])
    | isFalse h, _ => isFalse (by intro e; cases e; exact h rfl)
    | _, isFalse h => isFalse (by intro e; cases e; exact h rfl)
  | [], _ :: _ => isFalse nofun
  | _ :: _, [] => isFalse nofun

end

instance : DecidableEq Ty := decEq

/-- Whether nothing definite is known about a type. -/
def isVague : Ty → Bool
  | unresolved | dynamic => true
  | interface .. => false

/-- The class of a type. -/
def class? : Ty → Option ClassId
  | interface cls _ => some cls
  | _ => none

/-- The type arguments of a type. -/
def arguments : Ty → List Ty
  | interface _ arguments => arguments
  | _ => []

/-- The only type argument of a type, if it has exactly one. -/
def soleArgument (t : Ty) : Ty :=
  match t.arguments with
  | [a] => a
  | _ => .unresolved

/-- The type of a class without type arguments. -/
def ofClass (cls : ClassId) : Ty := .interface cls []

@[simp] theorem isVague_unresolved : unresolved.isVague = true := rfl

@[simp] theorem isVague_dynamic : dynamic.isVague = true := rfl

@[simp] theorem isVague_interface (cls : ClassId) (arguments : List Ty) :
    (interface cls arguments).isVague = false := rfl

end Ty

/-- The declaration of a class. -/
structure ClassDecl where
  /-- The key under which the class was declared. -/
  id : String
  /-- The name of the class. -/
  name : String
  /-- The library that declares the class. -/
  library : String
  /-- The type that the class extends. -/
  superclass : Ty := .unresolved
  /-- The types that the class mixes in; nothing if the declaration is malformed. -/
  mixins : Option (List Ty) := some []
  /-- The types that the class implements; nothing if the declaration is malformed. -/
  interfaces : Option (List Ty) := some []
  /-- The names of the type parameters. -/
  typeParameters : List String := []
deriving Repr, Inhabited

namespace ClassDecl

/-- The types that a class extends, mixes in and implements, in this order.  A malformed
declaration cannot list them. -/
def supertypes (c : ClassDecl) : Option (List Ty) :=
  match c.mixins, c.interfaces with
  | some mixins, some interfaces =>
    some ((if c.superclass = .unresolved then [] else [c.superclass]) ++ mixins ++ interfaces)
  | _, _ => none

/-- The classes that a class extends, mixes in and implements; what is unresolved or dynamic is
left out. -/
def superclasses (c : ClassDecl) : Option (List ClassId) :=
  c.supertypes.map (·.filterMap Ty.class?)

/-- Whether a class has a name and stands in a library. -/
def isNamed (c : ClassDecl) (name library : String) : Bool :=
  c.name == name && c.library == library

end ClassDecl

/-- The table of all classes. -/
structure Hierarchy where
  /-- The classes, each at the place by which types refer to it. -/
  classes : Array ClassDecl
deriving Repr, Inhabited

namespace Hierarchy

/-- The class at a place. -/
def get? (h : Hierarchy) (cls : ClassId) : Option ClassDecl := h.classes[cls]?

/-- The name of a class, empty for a place that is not in the table. -/
def nameOf (h : Hierarchy) (cls : ClassId) : String :=
  ((h.get? cls).map (·.name)).getD ""

mutual

/-- The text of a type: the name of its class, with the type arguments in angle brackets. -/
def typeText (h : Hierarchy) : Ty → String
  | .unresolved => "None"
  | .dynamic => "dynamic"
  | .interface cls [] => h.nameOf cls
  | .interface cls (a :: rest) =>
    h.nameOf cls ++ "<" ++ String.intercalate ", " (h.typeText a :: h.typeTexts rest) ++ ">"

/-- The texts of a list of types. -/
def typeTexts (h : Hierarchy) : List Ty → List String
  | [] => []
  | a :: rest => h.typeText a :: h.typeTexts rest

end

/-- The hierarchy with the type that a class extends replaced. -/
def setSuperclass (h : Hierarchy) (cls : ClassId) (superclass : Ty) : Hierarchy :=
  ⟨h.classes.modify cls (fun c => { c with superclass := superclass })⟩

end Hierarchy

/-- The library of the core classes. -/
def coreLibrary : String := "dart.core"

/-- The library of the classes that represent HTML. -/
def htmlLibrary : String := "dart.dom.html"

/-- A class of the core library. -/
def coreClass (name : String) (superclass : Ty) (typeParameters : List String) : ClassDecl where
  id := name
  name := name
  library := coreLibrary
  superclass := superclass
  typeParameters := typeParameters

/-- A class of the HTML library. -/
def htmlClass (name : String) (superclass : ClassId) : ClassDecl where
  id := "html." ++ name
  name := name
  library := htmlLibrary
  superclass := .ofClass superclass

/-- The hierarchy of the classes that are always there. -/
def Hierarchy.standard : Hierarchy where
  classes := #[
    coreClass "Object" .unresolved [],
    coreClass "num" (.ofClass 0) [],
    coreClass "int" (.ofClass 1) [],
    coreClass "double" (.ofClass 1) [],
    coreClass "String" (.ofClass 0) [],
    coreClass "List" (.ofClass 0) ["E"],
    htmlClass "Node" 0,
    htmlClass "Window" 0,
    htmlClass "Element" 6,
    htmlClass "DocumentFragment" 6,
    htmlClass "HtmlElement" 8,
    htmlClass "AnchorElement" 10,
    htmlClass "EmbedElement" 10,
    htmlClass "IFrameElement" 10,
    htmlClass "ImageElement" 10,
    htmlClass "ScriptElement" 10,
    htmlClass "DivElement" 10]

end TreeLint
