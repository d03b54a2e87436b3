/-
Which classes a class extends, mixes in or implements, directly or not.

`Hierarchy.search` looks for a class of a name and library among a class and
everything above it.  It works on a stack: of the supertypes of a class the last
one listed is looked at first.  A class is looked at once, so cycles do no harm;
a malformed class that is not itself the one looked for ends the search without
success.

`Supertypes` remembers the answers.  A remembered answer is given again even if
the hierarchy has changed since, until the memory is cleared.
-/
import TreeLint.Model.Answer
import TreeLint.Model.Type
namespace TreeLint

namespace Hierarchy

/-- The number of classes that were not looked at yet. -/
def countNew (h : Hierarchy) (seen : List ClassId) : Nat :=
  ((List.range h.classes.size).filter (fun c => !seen.contains c)).length

theorem countNew_cons_lt {h : Hierarchy} {seen : List ClassId} {c : ClassId}
    (hc : c < h.classes.size) (hn : seen.contains c = false) :
    h.countNew (c :: seen) < h.countNew seen := by
  have heq : (List.range h.classes.size).filter (fun d => !(c :: seen).contains d) =
      ((List.range h.classes.size).filter (fun d => !seen.contains d)).filter (· != c) := by
    rw [List.filter_filter]
    apply List.filter_congr
    intro d _
    by_cases hd : d = c <;> simp [hd]
  unfold countNew
  rw [heq, List.length_filter_lt_length_iff_exists]
  exact ⟨c, by simpa using ⟨hc, by simpa using hn⟩, by simp⟩

theorem lt_size_of_get? {h : Hierarchy} {c : ClassId} {decl : ClassDecl}
    (hg : h.get? c = some decl) : c < h.classes.size :=
  (Array.getElem?_eq_some_iff.1 hg).1

/-- Looks for a class of a name and library, from the classes on a stack upwards. -/
def searchFrom (h : Hierarchy) (name library : String) (stack seen : List ClassId) : Bool :=
  match stack with
  | [] => false
  | c :: rest =>
    if hs : seen.contains c = true then searchFrom h name library rest seen
    else
      match hg : h.get? c with
      | none => searchFrom h name library rest seen
      | some decl =>
        if decl.isNamed name library then true
        else
          match decl.superclasses with
          | none => false
          | some above =>
            have := countNew_cons_lt (lt_size_of_get? hg) (by simpa using hs)
            searchFrom h name library (above.reverse ++ rest) (c :: seen)
termination_by (h.countNew seen, stack.length)

/-- Whether a class, or one above it, has a name and stands in a library. -/
def search (h : Hierarchy) (cls : ClassId) (name library : String) : Bool :=
  h.searchFrom name library [cls] []

end Hierarchy

/-- A question about the classes above a class. -/
structure SupertypeKey where
  /-- The class. -/
  cls : ClassId
  /-- The name looked for. -/
  name : String
  /-- The library looked for. -/
  library : String
deriving DecidableEq, Repr

/-- A hierarchy and the answers given about it. -/
structure Supertypes where
  /-- The classes. -/
  hierarchy : Hierarchy
  /-- The answers given so far, the latest first. -/
  answers : List (SupertypeKey × Bool) := []

namespace Supertypes

/-- The remembered answer to a question. -/
def answerTo? (s : Supertypes) (key : SupertypeKey) : Option Bool := s.answers.lookup key

/-- Forgets all answers. -/
def clear (s : Supertypes) : Supertypes := { s with answers := [] }

/-- Whether a type is, or extends, mixes in or implements, a class of a name and library; and the
memory after the question. -/
def extendsClass (s : Supertypes) (type : Ty) (name library : String) : Bool × Supertypes :=
  match type with
  | .interface cls _ =>
    let key : SupertypeKey := ⟨cls, name, library⟩
    match s.answerTo? key with
    | some answer => (answer, s)
    | none =>
      let answer := s.hierarchy.search cls name library
      (answer, { s with answers := (key, answer) :: s.answers })
  | _ => (false, s)

/-- Whether a type extends one of several classes of a library.  The question ends at the first
class that the type extends. -/
def extendsAny (s : Supertypes) (type : Ty) (library : String) : List String → Bool × Supertypes
  | [] => (false, s)
  | name :: names =>
    match s.extendsClass type name library with
    | (true, s) => (true, s)
    | (false, s) => s.extendsAny type library names

/-- Whether a type extends one of several classes of a library, as far as the type is known. -/
def classify (s : Supertypes) (type : Ty) (names : List String) (library : String) :
    Answer × Supertypes :=
  if type.isVague then (.unknown, s)
  else
    match s.extendsAny type library names with
    | (b, s) => (.ofBool b, s)

end Supertypes

namespace Hierarchy

/-- Whether a type is a core class of a name, and no other class. -/
def isCoreClass (h : Hierarchy) (type : Ty) (name : String) : Bool :=
  match type.class?.bind h.get? with
  | some decl => decl.isNamed name coreLibrary
  | none => false

/-- Whether a type is a core class of a name, as far as the type is known. -/
def classifyCoreClass (h : Hierarchy) (type : Ty) (name : String) : Answer :=
  if type.isVague then .unknown else .ofBool (h.isCoreClass type name)

end Hierarchy

end TreeLint
