/-
Analyses of files.

For each file a fresh reporter and a fresh registry are made, the tree is
traversed once, and findings that comments suppress are taken out.  The files of
one analysis share what is remembered about the classes, and nothing else.

The journal keeps the warnings and the calls of handlers; it is there also when
the analysis fails.
-/
import TreeLint.Config.Basic
import TreeLint.Number
import TreeLint.Run.Suppression
import TreeLint.Run.Traversal
namespace TreeLint

/-- How often a rule was called in a file, and how long it took. -/
structure RuleTiming where
  /-- The name of the rule. -/
  rule : String
  /-- The time in milliseconds. -/
  totalMs : Number
  /-- The number of calls. -/
  calls : Int
deriving Repr

/-- What came of the analysis of one file. -/
structure FileResult where
  /-- The path of the file. -/
  file : String
  /-- The findings that are not suppressed. -/
  findings : List Finding
  /-- The calls of handlers that failed. -/
  failures : List Failure
  /-- The rules that were called, in the order of their first calls, if calls are counted. -/
  timing : List RuleTiming
  /-- The time that the analysis took, in milliseconds. -/
  elapsedMs : Number
  /-- The number of findings that were suppressed. -/
  suppressed : Nat
  /-- The number of covered lines and of names that cover the file, if comments were followed. -/
  suppressionCounts : Option (Nat × Nat)
  /-- The number of reports whose key was recorded before. -/
  duplicates : Nat
deriving Repr

/-- What an analysis leaves behind whether it succeeds or not. -/
structure Journal where
  /-- The warnings. -/
  warnings : List String := []
  /-- The calls of handlers. -/
  trace : List Invocation := []

/-- One journal after another. -/
def Journal.append (a b : Journal) : Journal := ⟨a.warnings ++ b.warnings, a.trace ++ b.trace⟩

/-- What came of a step that may fail, with its journal. -/
structure Outcome (α : Type) where
  /-- The result. -/
  result : Except Fault α
  /-- The journal. -/
  journal : Journal

/-- Goes on after a step that succeeded; the journals are put one after the other. -/
def Outcome.bind {α β : Type} (o : Outcome α) (next : α → Outcome β) : Outcome β :=
  match o.result with
  | .error f => ⟨.error f, o.journal⟩
  | .ok a => ⟨(next a).result, o.journal.append (next a).journal⟩

theorem Outcome.bind_of_ok {α β : Type} {o : Outcome α} {a : α} (h : o.result = .ok a)
    (next : α → Outcome β) :
    o.bind next = ⟨(next a).result, o.journal.append (next a).journal⟩ := by
  simp only [bind, h]

theorem Outcome.bind_of_error {α β : Type} {o : Outcome α} {f : Fault} (h : o.result = .error f)
    (next : α → Outcome β) : o.bind next = ⟨.error f, o.journal⟩ := by
  simp only [bind, h]

namespace Analysis

/-- The reporter of a file. -/
def reporterFor (config : Config) (tree : Tree) : Reporter where
  tree := tree
  strict := config.strict.isTruthy
  severities := config.severityTable
  limit := config.maxFindings.map (fun n => (n : Int))

/-- What the rules know of a file. -/
def contextFor (config : Config) (tree : Tree) : Context where
  tree := tree
  settings := config.ruleConfigs

/-- The warning about a suppression comment. -/
def commentWarning (tree : Tree) (p : Nat × Suppression.Problem) : String :=
  let path := tree.path
  let line := p.1
  let message := p.2.message
  s!"{path}:{line}: {message}"

/-- The findings of a traversal with those taken out that comments suppress. -/
structure Filtered where
  /-- The findings that are left. -/
  findings : List Finding
  /-- The number of findings taken out. -/
  suppressed : Nat
  /-- The numbers of covered lines and of names that cover the file, if comments were followed. -/
  counts : Option (Nat × Nat)
  /-- The warnings about comments. -/
  warnings : List String

/-- The text whose comments are followed: that of the file, if it is known and not empty. -/
def commentedText? (config : Config) (tree : Tree) : Option String :=
  if config.honorSuppressions.isTruthy then tree.text.filter (· ≠ "") else none

/-- The findings that suppressions leave. -/
def kept (s : Suppressions) (findings : List Finding) : List Finding :=
  findings.filter (fun f => !s.suppresses f.rule f.location.line)

/-- Takes out the findings that the comments of a file suppress. -/
def filterFindings (config : Config) (tree : Tree) (findings : List Finding) : Filtered :=
  match commentedText? config tree with
  | none => ⟨findings, 0, none, []⟩
  | some text =>
    let s := Suppressions.ofText text
    let left := kept s findings
    ⟨left, findings.length - left.length, some s.counts,
      (Suppression.problems text).map (commentWarning tree)⟩

/-- The result of a traversal that was not ended early. -/
def fileResult (config : Config) (tree : Tree) (t : Traversal) (f : Filtered) : FileResult where
  file := tree.path
  findings := f.findings
  failures := t.failures
  timing :=
    if config.collectTiming.isTruthy then t.calls.map (fun c => ⟨c.1, .float 0.0, c.2⟩) else []
  elapsedMs := .float 0.0
  suppressed := f.suppressed
  suppressionCounts := f.counts
  duplicates := t.session.reporter.duplicates

section

variable [Machine]

/-- Analyses one file with rules that passed the checks. -/
def analyzeFile (rules : List Rule) (config : Config) (links : Links) (tree : Tree)
    (supertypes : Supertypes) : Outcome (FileResult × Supertypes) :=
  let context := contextFor config tree
  match RuleSet.buildRegistry rules context links (reporterFor config tree) supertypes with
  | (.error f, b) => ⟨.error f, ⟨b.warnings, []⟩⟩
  | (.ok (), b) =>
    match Traversal.run config.strict.isTruthy context links b.session with
    | (some f, t) => ⟨.error f, ⟨b.warnings ++ t.warnings, t.trace⟩⟩
    | (none, t) =>
      let filtered := filterFindings config tree t.session.reporter.findings
      ⟨.ok (fileResult config tree t filtered, t.session.supertypes),
        ⟨b.warnings ++ t.warnings ++ filtered.warnings, t.trace⟩⟩

/-- Analyses files one after the other, up to the first that fails. -/
def analyzeFiles (rules : List Rule) (config : Config) (links : Links) :
    List Tree → Supertypes → Outcome (List FileResult)
  | [], _ => ⟨.ok [], {}⟩
  | tree :: rest, supertypes =>
    (analyzeFile rules config links tree supertypes).bind fun r =>
      (analyzeFiles rules config links rest r.2).bind fun results =>
        ⟨.ok (r.1 :: results), {}⟩

/-- Checks the rules and analyses one file. -/
def analyzeTree (rules : List Rule) (config : Config) (hierarchy : Hierarchy) (links : Links)
    (tree : Tree) : Outcome FileResult :=
  match RuleSet.validate rules with
  | .error f => ⟨.error f, {}⟩
  | .ok () =>
    (analyzeFile rules config links tree ⟨hierarchy, []⟩).bind fun r => ⟨.ok r.1, {}⟩

/-- Checks the rules once and analyses several files. -/
def analyzeTrees (rules : List Rule) (config : Config) (hierarchy : Hierarchy) (links : Links)
    (trees : List Tree) : Outcome (List FileResult) :=
  match RuleSet.validate rules with
  | .error f => ⟨.error f, {}⟩
  | .ok () => analyzeFiles rules config links trees ⟨hierarchy, []⟩

end

end Analysis

end TreeLint
