/-
Rules and the registry of their handlers.

A rule has a card and a setup: what it does when it is asked to register its
handlers.  The registry of one traversal keeps, for every node kind, the handlers
in the order in which they were added.  A handler is added only while the registry
is not frozen, for a node kind, under the name of a rule of the set.
-/
import TreeLint.Rule.Script
namespace TreeLint

/-- An attempt to add a handler. -/
structure Registration where
  /-- What should be a node kind: the name of one. -/
  kind : Value
  /-- The name of the rule under which the handler is added. -/
  rule : String
  /-- The handler, unless it is something else. -/
  handler : Option Handler

/-- The script that adds handlers one after the other, up to the first that is refused. -/
def Script.addAll : List Registration → Script
  | [] => .done
  | reg :: rest =>
    .register reg.kind reg.rule reg.handler.isSome (reg.handler.getD (fun _ _ => .done))
      (orFail (addAll rest))

/-- A rule. -/
structure Rule where
  /-- The rule as messages show it. -/
  object : Value
  /-- What kind of object the rule is. -/
  kind : String := "Rule"
  /-- What the rule tells about itself. -/
  card : Option RuleCard
  /-- What the rule does to register its handlers for a file. -/
  setup : Option (Context → Script)

/-- The name of a rule; a rule without a card has none. -/
def Rule.name (r : Rule) : Except Fault String :=
  match r.card with
  | some card => .ok card.name
  | none => .error (.noMember r.kind "meta")

/-- A handler in the registry. -/
structure Processor where
  /-- The name under which the handler was added. -/
  rule : String
  /-- The name of the rule that added the handler. -/
  owner : String
  /-- The handler. -/
  handler : Handler

/-- The handlers of one traversal. -/
structure Registry where
  /-- The handlers by node kind, the kinds in the order in which they were first used. -/
  processors : List (NodeKind × List Processor) := []
  /-- The names under which handlers may be added, if not all may. -/
  allowed : Option (List String) := none
  /-- Whether handlers can no longer be added. -/
  frozen : Bool := false

namespace Registry

/-- The handlers for a node kind, in the order in which they were added. -/
def processorsFor (r : Registry) (kind : NodeKind) : List Processor :=
  (r.processors.lookup kind).getD []

/-- The node kinds that have handlers. -/
def kinds (r : Registry) : List NodeKind := r.processors.map (·.1)

/-- The number of handlers. -/
def size (r : Registry) : Nat := (r.processors.flatMap (·.2)).length

/-- The names under which the handlers for a node kind were added. -/
def rulesFor (r : Registry) (kind : NodeKind) : List String :=
  (r.processorsFor kind).map (·.rule)

/-- The registry to which no handler can be added any more. -/
def freeze (r : Registry) : Registry := { r with frozen := true }

/-- Whether handlers may be added under a name. -/
def isAllowed (r : Registry) (rule : String) : Bool :=
  match r.allowed with
  | none => true
  | some names => names.contains rule

/-- A table with a handler appended for a node kind. -/
def append (kind : NodeKind) (p : Processor) :
    List (NodeKind × List Processor) → List (NodeKind × List Processor)
  | [] => [(kind, [p])]
  | (k, ps) :: rest => if k = kind then (k, ps ++ [p]) :: rest else (k, ps) :: append kind p rest

/-- The node kind with the name that a value holds. -/
def kindOf? : Value → Option NodeKind
  | .string s => NodeKind.ofName? s
  | _ => none

section

variable [Machine]

/-- The names under which handlers were added for what a value names; it has to be a node kind. -/
def rulesForNamed (r : Registry) (kind : Value) : Except Fault (List String) :=
  match kindOf? kind with
  | some k => .ok (r.rulesFor k)
  | none => .error (.showing kind.quoted .noSuchKind)

/-- Adds a handler for the rule that owns it.  The refusal of what is no node kind shows it. -/
def add (r : Registry) (owner : String) (reg : Registration) : Except Fault Registry :=
  if r.frozen then .error (.frozen reg.rule)
  else
    match kindOf? reg.kind with
    | none => .error (.showing reg.kind.quoted (.unknownKind reg.rule))
    | some kind =>
      match reg.handler with
      | none => .error (.notCallable reg.rule kind)
      | some handler =>
        if r.isAllowed reg.rule then
          .ok { r with processors := append kind ⟨reg.rule, owner, handler⟩ r.processors }
        else .error (.outsideRuleSet reg.rule)

end

@[simp] theorem frozen_freeze (r : Registry) : r.freeze.frozen = true := rfl

@[simp] theorem processors_freeze (r : Registry) : r.freeze.processors = r.processors := rfl

@[simp] theorem processorsFor_freeze (r : Registry) (kind : NodeKind) :
    r.freeze.processorsFor kind = r.processorsFor kind := rfl

theorem add_of_frozen [Machine] {r : Registry} (h : r.frozen = true) (owner : String)
    (reg : Registration) : r.add owner reg = .error (.frozen reg.rule) := by
  simp [add, h]

end Registry

end TreeLint
