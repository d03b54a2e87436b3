/-
Rule sets: their checks, and the registry they build.

Before any file is looked at, a list of rules is checked and all its problems are
listed.  For each file the rules then register their handlers one after the other;
what they report, ask and add on the way goes through the session of the file.  The
first failure ends it, and a rule that adds no handler is warned about.
-/
import TreeLint.Rule.Session
namespace TreeLint

namespace RuleSet

/-! ### Checks -/

/-- The names and identifiers met while a rule set is checked. -/
structure Met where
  /-- The rule names. -/
  names : List String := []
  /-- The identifiers and the rules that declared them, the latest declaration first. -/
  owners : List (String × String) := []

section

variable [Machine]

/-- The argument indexes that a template uses, as a text. -/
def slotsText (slots : List Nat) : Except TextFault String :=
  (Value.list (slots.map (fun i => .int (i : Nat)))).text

/-- The problem of a diagnostic kind whose template leaves out an argument, if it does. -/
def templateProblems (code : DiagnosticKind) : Except Fault (List RuleProblem) := do
  if ← code.isWellFormed then return []
  else return [.unusedArgument code.id (← Fault.told (slotsText (← code.slotIndexes)))]

/-- The problems of one diagnostic kind of a rule; another rule may own its identifier. -/
def codeProblems (rule : String) (code : DiagnosticKind) (owner : Option String) :
    Except Fault (List RuleProblem) := do
  let template ← templateProblems code
  let shared : List RuleProblem := match owner with
    | none => []
    | some other =>
      if other ≠ rule then [.sharedId code.id other rule] else [.repeatedId rule code.id]
  return (if code.name ≠ rule then [.foreignKind rule code.id code.name] else []) ++
    template ++ shared

/-- The problems of the kinds that a rule declares, and the identifiers met after them. -/
def codesProblems (rule : String) :
    List DeclaredKind → List (String × String) →
      Except Fault (List RuleProblem × List (String × String))
  | [], owners => .ok ([], owners)
  | .other value :: rest, owners => do
    let shown ← Fault.told value.quoted
    let (problems, owners) ← codesProblems rule rest owners
    return (.notAKind rule shown :: problems, owners)
  | .kind code :: rest, owners => do
    let own ← codeProblems rule code (owners.lookup code.id)
    let (problems, owners) ← codesProblems rule rest ((code.id, rule) :: owners)
    return (own ++ problems, owners)

/-- The problems of one rule, and what is met after it. -/
def ruleProblems (rule : Rule) (met : Met) : Except Fault (List RuleProblem × Met) :=
  match rule.card with
  | none => return ([.noCard (← Fault.told rule.object.quoted)], met)
  | some card => do
    let (codes, owners) ← codesProblems card.name card.codes met.owners
    return ((if rule.setup.isSome then [] else [.noSetup card.name]) ++
      (if met.names.contains card.name then [.duplicateName card.name] else []) ++
      (if card.codes.isEmpty then [.noKinds card.name] else []) ++ codes,
      ⟨card.name :: met.names, owners⟩)

/-- The problems of the rules of a list, after what was met before. -/
def problemsFrom : List Rule → Met → Except Fault (List RuleProblem)
  | [], _ => .ok []
  | rule :: rest, met => do
    let (own, met) ← ruleProblems rule met
    return own ++ (← problemsFrom rest met)

/-- The problems of a list of rules. -/
def problems (rules : List Rule) : Except Fault (List RuleProblem) := problemsFrom rules {}

/-- Checks a list of rules. -/
def validate (rules : List Rule) : Except Fault Unit :=
  match problems rules with
  | .error f => .error f
  | .ok [] => .ok ()
  | .ok ps => .error (.invalidRuleSet ps)

/-! ### Registration -/

/-- The fault of a rule that failed to register: registration faults are passed on, any other
becomes their cause, by its message. -/
def setupFault (rule : String) (f : Fault) : Fault :=
  if f.isRegistration then f else .showing f.message (.setupFailed rule)

end

/-- The warning about a rule without handlers. -/
def idleWarning (rule : String) : String := s!"Rule '{rule}' registered no node processors"

/-- The state in which rules register: the session of the file, and the warnings. -/
structure Building where
  /-- The session, whose reporter learns what the rules declare. -/
  session : Session
  /-- The warnings so far. -/
  warnings : List String := []

section

variable [Machine]

/-- Lets one rule declare its kinds and register its handlers. -/
def enroll (context : Context) (links : Links) (rule : Rule) (b : Building) :
    Except Fault Unit × Building :=
  match rule.card with
  | none => (.error (.noMember rule.kind "meta"), b)
  | some card =>
    match card.codeIds with
    | .error f => (.error f, b)
    | .ok ids =>
      let session := b.session.declare card.name ids
      match rule.setup with
      | none =>
        (.error (setupFault card.name (.noMember rule.kind "register_node_processors")),
          { b with session := session })
      | some setup =>
        match (setup context).run card.name links session with
        | (some f, session) => (.error (setupFault card.name f), { b with session := session })
        | (none, session) =>
          let idle := session.registry.size == b.session.registry.size
          (.ok (), {
            session := session
            warnings := b.warnings ++ if idle then [idleWarning card.name] else [] })

/-- Lets rules register one after the other, up to the first that fails. -/
def enrollAll (context : Context) (links : Links) :
    List Rule → Building → Except Fault Unit × Building
  | [], b => (.ok (), b)
  | rule :: rest, b =>
    match enroll context links rule b with
    | (.error f, b) => (.error f, b)
    | (.ok (), b) => enrollAll context links rest b

/-- The names of the rules of a list. -/
def names (rules : List Rule) : Except Fault (List String) := rules.mapM Rule.name

/-- Builds the registry of one file, which is frozen then. -/
def buildRegistry (rules : List Rule) (context : Context) (links : Links) (reporter : Reporter)
    (supertypes : Supertypes) : Except Fault Unit × Building :=
  match names rules with
  | .error f => (.error f, ⟨⟨reporter, {}, supertypes⟩, []⟩)
  | .ok names =>
    match enrollAll context links rules ⟨⟨reporter, { allowed := some names }, supertypes⟩, []⟩ with
    | (.error f, b) => (.error f, b)
    | (.ok (), b) => (.ok (), { b with session := b.session.freeze })

end

end RuleSet

end TreeLint
