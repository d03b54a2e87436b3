/-
What rules do, as scripts.

What a rule does when it registers, and what a handler does on a node, is a script: it
may report, ask about supertypes and places in the tree, try to add handlers, and in
the end return or fail.  The answer to each step decides how the script goes on, so a
script may take note of a failed report or of a refused handler, or let it through.

Rules and handlers know the context of the file that they work on, and keep nothing
from one file to the next.
-/
import TreeLint.Diagnostic.Finding
import TreeLint.Model.Supertype
namespace TreeLint

/-- What a rule knows of the file that it works on. -/
structure Context where
  /-- The file. -/
  tree : Tree
  /-- The settings that are handed to the rules. -/
  settings : List (Value × Value)

/-- What a rule or a handler does. -/
inductive Script where
  /-- It returns. -/
  | done
  /-- It fails. -/
  | fail (fault : Fault)
  /-- It reports, and learns what became of the report. -/
  | report (report : Report) (next : Except Fault (Option Finding) → Script)
  /-- It tries to add a handler for a node kind under the name of a rule, and learns whether it
  succeeded.  What is added counts as a handler only if it can be called. -/
  | register (kind : Value) (rule : String) (callable : Bool) (handler : Context → Site → Script)
      (next : Except Fault Unit → Script)
  /-- It asks whether a type extends a class. -/
  | extendsClass (type : Ty) (name library : String) (next : Bool → Script)
  /-- It asks where a node stands. -/
  | locate (node : Node) (next : Site → Script)

/-- A handler: a script for every node that it is called on, in the context of the file. -/
abbrev Handler := Context → Site → Script

namespace Script

/-- The script that does one thing after the other; the second is left out if the first fails. -/
def andThen (first second : Script) : Script :=
  match first with
  | done => second
  | fail f => fail f
  | report r next => report r (fun answer => (next answer).andThen second)
  | register kind rule callable handler next =>
    register kind rule callable handler (fun answer => (next answer).andThen second)
  | extendsClass type name library next =>
    extendsClass type name library (fun answer => (next answer).andThen second)
  | locate node next => locate node (fun place => (next place).andThen second)

/-- Goes on after a step that succeeded, and fails with a step that failed. -/
def orFail {α : Type} (next : Script) : Except Fault α → Script
  | .ok _ => next
  | .error f => fail f

/-- Goes on with an answer, or fails with the fault that stands in its place. -/
def attempt {α : Type} (answer : Except Fault α) (next : α → Script) : Script :=
  match answer with
  | .ok a => next a
  | .error f => fail f

/-- Reports and returns; a failed report is let through. -/
def reportOnce (r : Report) : Script := report r (orFail done)

/-- Asks whether a type extends one of several classes of a library, up to the first success. -/
def extendsAny (type : Ty) (library : String) (next : Bool → Script) : List String → Script
  | [] => next false
  | name :: names =>
    extendsClass type name library
      (fun answer => if answer then next true else extendsAny type library next names)

/-- Asks whether a type extends one of several classes of a library, as far as the type is
known. -/
def classify (type : Ty) (names : List String) (library : String) (next : Answer → Script) :
    Script :=
  if type.isVague then next .unknown
  else extendsAny type library (fun b => next (.ofBool b)) names

@[simp] theorem done_andThen (s : Script) : done.andThen s = s := rfl

@[simp] theorem fail_andThen (f : Fault) (s : Script) : (fail f).andThen s = fail f := rfl

@[simp] theorem attempt_ok {α : Type} (a : α) (next : α → Script) :
    attempt (.ok a) next = next a := rfl

@[simp] theorem attempt_error {α : Type} (f : Fault) (next : α → Script) :
    attempt (.error f) next = fail f := rfl

@[simp] theorem andThen_done (s : Script) : s.andThen done = s := by
  induction s with
  | done => rfl
  | fail f => rfl
  | report r next ih => simp only [andThen, ih]
  | register kind rule callable handler next _ ih => simp only [andThen, ih]
  | extendsClass type name library next ih => simp only [andThen, ih]
  | locate node next ih => simp only [andThen, ih]

end Script

end TreeLint
