/-
Findings and the reporter that collects them.

A reporter belongs to one file.  It makes a finding of a report: the message, the
severity and the location.  A finding is known by its key, the rule, the kind and
the span, and a key is recorded at most once; when the limit of findings is
reached, new keys are dropped.  A strict reporter refuses a report whose number of
arguments differs from what the template expects, and a kind that the rule does
not declare; every reporter refuses a report whose template cannot be read, or
expects a number of arguments that cannot be told.  A new finding fails if it cannot
be located, or if its message needs an argument without a text.  A report that fails
leaves the reporter as it was.
-/
import TreeLint.Diagnostic.Kind
import TreeLint.Syntax.Tree
namespace TreeLint

/-- What makes two findings the same. -/
structure FindingKey where
  /-- The name of the rule. -/
  rule : String
  /-- The identifier of the diagnostic kind. -/
  code : String
  /-- The span. -/
  span : Span
deriving DecidableEq, Repr

/-- A reported instance of a diagnostic kind. -/
structure Finding where
  /-- The name of the rule. -/
  rule : String
  /-- The diagnostic kind. -/
  code : DiagnosticKind
  /-- The path of the file. -/
  file : String
  /-- The span of the node. -/
  span : Span
  /-- The arguments of the message. -/
  arguments : List Value
  /-- The severity. -/
  severity : String
  /-- The message. -/
  message : String
  /-- Where the span starts. -/
  location : Location
deriving Repr

namespace Finding

/-- What makes a finding the same as another one. -/
def key (f : Finding) : FindingKey := ⟨f.rule, f.code.id, f.span⟩

/-- A finding as one line of text. -/
def render (f : Finding) : Except TextFault String := do
  let rule := f.rule
  let severity := f.severity
  let message := f.message
  let file := f.file
  let line ← Value.decimal f.location.line
  let column ← Value.decimal f.location.column
  return s!"{rule}: {severity}: {message} @ {file}:{line}:{column}"

end Finding

/-- A report of a rule: a kind, the span it is about and the arguments of the message. -/
structure Report where
  /-- The name under which the rule reports. -/
  rule : String
  /-- The span. -/
  span : Span
  /-- The diagnostic kind. -/
  code : DiagnosticKind
  /-- The arguments of the message. -/
  arguments : List Value
deriving Repr

/-- The key of the finding that a report asks for. -/
def Report.key (r : Report) : FindingKey := ⟨r.rule, r.code.id, r.span⟩

/-- The findings of one file. -/
structure Reporter where
  /-- The file. -/
  tree : Tree
  /-- Whether wrong reports fail. -/
  strict : Bool
  /-- The severities that replace those of the diagnostic kinds, by rule name. -/
  severities : List (String × String)
  /-- The number of findings after which new ones are dropped. -/
  limit : Option Int
  /-- The findings, in the order in which they were reported. -/
  findings : List Finding := []
  /-- The keys of the findings. -/
  seen : List FindingKey := []
  /-- The identifiers that rules declare, the latest declaration first. -/
  declared : List (String × List String) := []
  /-- The number of reports whose key was recorded before. -/
  duplicates : Nat := 0
  /-- The number of reports that came after the limit was reached. -/
  dropped : Nat := 0

namespace Reporter

/-- Notes the identifiers that a rule declares. -/
def declare (r : Reporter) (rule : String) (ids : List String) : Reporter :=
  { r with declared := (rule, ids) :: r.declared }

/-- The fault of a report whose number of arguments is not the one expected.  Strict reporters
refuse the report; a number expected that is too long for a text is a fault for any reporter. -/
def countFault? (r : Reporter) (report : Report) (arity : Nat) : Option Fault :=
  if report.arguments.length = arity then none
  else
    match Value.decimal arity with
    | .error why => some (.text why)
    | .ok expected =>
      if r.strict then
        some (.argumentCount report.code.id expected (toString report.arguments.length))
      else none

/-- The fault of a report of a kind that the rule does not declare, for a strict reporter; a rule
that never declared anything may report everything. -/
def vocabularyFault? (r : Reporter) (report : Report) : Option Fault :=
  if r.strict then
    match r.declared.lookup report.rule with
    | some ids =>
      if ids.contains report.code.id then none else some (.undeclared report.rule report.code.id)
    | none => none
  else none

/-- Whether the limit of findings is reached. -/
def isFull (r : Reporter) : Bool :=
  match r.limit with
  | some n => decide (n ≤ r.findings.length)
  | none => false

/-- The finding that a report makes with a message at a location. -/
def findingOf (r : Reporter) (report : Report) (message : String) (location : Location) :
    Finding where
  rule := report.rule
  code := report.code
  file := r.tree.path
  span := report.span
  arguments := report.arguments
  severity := (r.severities.lookup report.rule).getD report.code.severity
  message := message
  location := location

/-- The reporter that has recorded a new finding. -/
def withFinding (r : Reporter) (finding : Finding) : Reporter :=
  { r with seen := finding.key :: r.seen, findings := r.findings ++ [finding] }

section

variable [Machine]

/-- The finding of a report that is new: first it is located, and then its message is made. -/
def finding (r : Reporter) (report : Report) : Except Fault Finding := do
  let location ← r.tree.location report.span.start
  let message ← report.code.format report.arguments
  return r.findingOf report message location

/-- Records a report.  The finding is returned if it is new and the limit is not reached. -/
def record (r : Reporter) (report : Report) : Except Fault (Option Finding) × Reporter :=
  if r.seen.contains report.key then (.ok none, { r with duplicates := r.duplicates + 1 })
  else if r.isFull then (.ok none, { r with dropped := r.dropped + 1 })
  else
    match r.finding report with
    | .error f => (.error f, r)
    | .ok finding => (.ok (some finding), r.withFinding finding)

end

/-- The fault of a report: its template cannot be read, or the number of arguments is wrong, or,
last, the rule does not declare the kind. -/
def refusal? (r : Reporter) (report : Report) : Option Fault :=
  match report.code.arity with
  | .error f => some f
  | .ok arity =>
    match r.countFault? report arity with
    | some f => some f
    | none => r.vocabularyFault? report

/-- Takes a report: one without fault is recorded. -/
def report [Machine] (r : Reporter) (report : Report) : Except Fault (Option Finding) × Reporter :=
  match r.refusal? report with
  | some f => (.error f, r)
  | none => r.record report

@[simp] theorem key_findingOf (r : Reporter) (report : Report) (message : String)
    (location : Location) : (r.findingOf report message location).key = report.key := rfl

end Reporter

end TreeLint
