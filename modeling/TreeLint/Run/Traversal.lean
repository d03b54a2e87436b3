/-
One traversal of a tree.

The tree is walked once, and at each node the handlers registered for its kind
run in the order of their registration.  A handler that fails is noted as a
failure and stops nothing else, with two exceptions: in strict mode a programming
fault ends the traversal, and so does in any mode a failure that cannot be noted,
because it cannot be located or has no text.  What the handlers report, ask and try
to register goes through one session; the traversal notes which handlers were
called, how often, and how they failed.
-/
import TreeLint.Rule.RuleSet
namespace TreeLint

/-- A call of a handler on a node. -/
structure Invocation where
  /-- The name under which the handler was added. -/
  rule : String
  /-- The name of the rule that added the handler. -/
  owner : String
  /-- The node. -/
  node : Node

/-- A call of a handler that failed. -/
structure Failure where
  /-- The name under which the handler was added. -/
  rule : String
  /-- The name of the kind of the node. -/
  nodeKind : String
  /-- The path of the file. -/
  file : String
  /-- The span of the node. -/
  span : Span
  /-- The class and the message of the fault. -/
  error : String
deriving DecidableEq, Repr

/-- The state of a traversal. -/
structure Traversal where
  /-- What handlers act on. -/
  session : Session
  /-- The calls that failed, in their order. -/
  failures : List Failure := []
  /-- How often a handler was called under each name, in the order of the first calls. -/
  calls : List (String × Nat) := []
  /-- The calls, in their order. -/
  trace : List Invocation := []
  /-- The warnings, in their order. -/
  warnings : List String := []

namespace Traversal

/-- Counts a call under a name. -/
def countCall (rule : String) : List (String × Nat) → List (String × Nat)
  | [] => [(rule, 1)]
  | (r, n) :: rest => if r = rule then (r, n + 1) :: rest else (r, n) :: countCall rule rest

section

variable [Machine]

/-- The record of a failed call. -/
def failureOf (tree : Tree) (p : Processor) (n : Node) (f : Fault) : Except TextFault Failure :=
  return ⟨p.rule, n.kind.name, tree.path, n.span, ← f.recorded⟩

/-- The warning about a failed call. -/
def failureWarning (tree : Tree) (p : Processor) (n : Node) (at_ : Location) (f : Fault) :
    Except TextFault String := do
  let rule := p.rule
  let kind := n.kind.name
  let path := tree.path
  let line := at_.line
  let shown ← f.shown
  return s!"Rule '{rule}' failed on {kind} at {path}:{line}: {shown}"

/-- Notes how a call ended.  The traversal goes on unless a programming fault meets strict mode, or
the failure cannot be located or told; the warning comes before the record. -/
def noteFault (strict : Bool) (tree : Tree) (p : Processor) (n : Node) (t : Traversal) :
    Option Fault → Option Fault × Traversal
  | none => (none, t)
  | some f =>
    if strict && f.isProgramming then (some f, t)
    else
      match tree.location n.span.start with
      | .error g => (some g, t)
      | .ok l =>
        match failureWarning tree p n l f with
        | .error why => (some (.text why), t)
        | .ok warning =>
          let warned := { t with warnings := t.warnings ++ [warning] }
          match failureOf tree p n f with
          | .error why => (some (.text why), warned)
          | .ok failure => (none, { warned with failures := t.failures ++ [failure] })

/-- Calls one handler on a node. -/
def invoke (strict : Bool) (context : Context) (links : Links) (n : Node) (p : Processor)
    (t : Traversal) : Option Fault × Traversal :=
  let ended := (p.handler context (links.site n)).run p.owner links t.session
  noteFault strict context.tree p n
    { t with
      session := ended.2
      calls := countCall p.rule t.calls
      trace := t.trace ++ [⟨p.rule, p.owner, n⟩] }
    ended.1

/-- Calls handlers on a node one after the other, until the traversal is ended. -/
def invokeAll (strict : Bool) (context : Context) (links : Links) (n : Node) :
    List Processor → Traversal → Option Fault × Traversal
  | [], t => (none, t)
  | p :: rest, t =>
    match invoke strict context links n p t with
    | (some f, t) => (some f, t)
    | (none, t) => invokeAll strict context links n rest t

/-- Visits nodes one after the other, until the traversal is ended. -/
def visitAll (strict : Bool) (context : Context) (links : Links) :
    List Node → Traversal → Option Fault × Traversal
  | [], t => (none, t)
  | n :: rest, t =>
    match invokeAll strict context links n (t.session.registry.processorsFor n.kind) t with
    | (some f, t) => (some f, t)
    | (none, t) => visitAll strict context links rest t

/-- Visits all nodes of a tree; the registry is frozen first. -/
def run (strict : Bool) (context : Context) (links : Links) (session : Session) :
    Option Fault × Traversal :=
  visitAll strict context links context.tree.walk { session := session.freeze }

end

end Traversal

end TreeLint
