/-
Sessions: what the scripts of one file act on.

A session holds the findings of the file, the handlers that have been added, and what
is remembered about the classes.  `Script.run` runs a script in a session, and gives
the fault that it ends with, if it fails, and the session that it leaves.
-/
import TreeLint.Rule.Registry
namespace TreeLint

/-- What the scripts of one file act on. -/
structure Session where
  /-- The findings of the file. -/
  reporter : Reporter
  /-- The handlers. -/
  registry : Registry
  /-- The classes, and what is remembered about them. -/
  supertypes : Supertypes

namespace Session

/-- The session in which a rule has declared its identifiers. -/
def declare (s : Session) (rule : String) (ids : List String) : Session :=
  { s with reporter := s.reporter.declare rule ids }

/-- The session in which no handler can be added any more. -/
def freeze (s : Session) : Session := { s with registry := s.registry.freeze }

@[simp] theorem registry_declare (s : Session) (rule : String) (ids : List String) :
    (s.declare rule ids).registry = s.registry := rfl

@[simp] theorem supertypes_declare (s : Session) (rule : String) (ids : List String) :
    (s.declare rule ids).supertypes = s.supertypes := rfl

@[simp] theorem reporter_freeze (s : Session) : s.freeze.reporter = s.reporter := rfl

@[simp] theorem registry_freeze (s : Session) : s.freeze.registry = s.registry.freeze := rfl

@[simp] theorem supertypes_freeze (s : Session) : s.freeze.supertypes = s.supertypes := rfl

end Session

namespace Script

variable [Machine]

/-- Runs a script of a rule, which owns the handlers that it adds: the fault that it ends with, if
it fails, and the session after it. -/
def run (owner : String) (links : Links) : Script → Session → Option Fault × Session
  | .done, s => (none, s)
  | .fail f, s => (some f, s)
  | .report r next, s =>
    let answer := s.reporter.report r
    (next answer.1).run owner links { s with reporter := answer.2 }
  | .register kind rule callable handler next, s =>
    match s.registry.add owner ⟨kind, rule, if callable then some handler else none⟩ with
    | .error f => (next (.error f)).run owner links s
    | .ok registry => (next (.ok ())).run owner links { s with registry := registry }
  | .extendsClass type name library next, s =>
    let answer := s.supertypes.extendsClass type name library
    (next answer.1).run owner links { s with supertypes := answer.2 }
  | .locate node next, s => (next (links.site node)).run owner links s

/-- Of two scripts one after the other, the second runs in the session that the first leaves, and
not at all if the first fails. -/
theorem run_andThen (owner : String) (links : Links) (first second : Script) (s : Session) :
    (first.andThen second).run owner links s =
      match first.run owner links s with
      | (none, s) => second.run owner links s
      | (some f, s) => (some f, s) := by
  induction first generalizing s with
  | done => rfl
  | fail f => rfl
  | report r next ih => simp only [andThen, run, ih]
  | register kind rule callable handler next _ ih =>
    simp only [andThen, run]
    split <;> exact ih _ _
  | extendsClass type name library next ih => simp only [andThen, run, ih]
  | locate node next ih => simp only [andThen, run, ih]

end Script

end TreeLint
