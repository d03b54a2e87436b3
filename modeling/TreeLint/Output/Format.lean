/-
The output of an analysis.

There are two formats.  The text format prints one line for each finding.  The
machine-readable format is a report of records that are checked by a protocol: a
finding has a known severity, a span that is not negative, and lines and columns that
count from one, and the number of rules is not negative.  The report holds the findings
and failures of all files in order, and for each rule the sum of its times and calls,
the rules in the order in which they first occur; the protocol writes it.
-/
import TreeLint.Output.Protocol
import TreeLint.Run.Analysis
namespace TreeLint

namespace Output

/-- The version of the protocol. -/
def protocolVersion : String := "1"

/-- The version of the engine. -/
def engineVersion : String := "0.1.0"

/-- The findings of all files, in order. -/
def findingsOf (results : List FileResult) : List Finding := results.flatMap (·.findings)

/-- The failures of all files, in order. -/
def failuresOf (results : List FileResult) : List Failure := results.flatMap (·.failures)

/-- The lines of some findings, up to the first that cannot be printed. -/
def linesOf : List Finding → Except TextFault (List String)
  | [] => .ok []
  | f :: rest => do
    let line ← f.render
    let others ← linesOf rest
    return line :: others

/-- The text format: a line for each finding. -/
def text (results : List FileResult) : Except TextFault String :=
  return String.intercalate "\n" (← linesOf (findingsOf results))

/-- The fields of a finding, with the texts of its arguments. -/
def findingFields (f : Finding) (arguments : List String) : List Field := [
  ⟨"rule", .text, .string f.rule⟩,
  ⟨"code", .text, .string f.code.id⟩,
  ⟨"severity", .oneOf severities, .string f.severity⟩,
  ⟨"message", .text, .string f.message⟩,
  ⟨"correction", .textOrNothing, .ofOption f.code.correction⟩,
  ⟨"arguments", .texts, .array (arguments.map .string)⟩,
  ⟨"file_path", .text, .string f.file⟩,
  ⟨"start_byte", .atLeast 0, .int f.span.start⟩,
  ⟨"end_byte", .atLeast 0, .int f.span.stop⟩,
  ⟨"line", .atLeast 1, .int f.location.line⟩,
  ⟨"column", .atLeast 1, .int f.location.column⟩]

/-- The fields of a failure. -/
def failureFields (f : Failure) : List Field := [
  ⟨"rule", .text, .string f.rule⟩,
  ⟨"node_kind", .text, .string f.nodeKind⟩,
  ⟨"file_path", .text, .string f.file⟩,
  ⟨"start_byte", .integer, .int f.span.start⟩,
  ⟨"end_byte", .integer, .int f.span.stop⟩,
  ⟨"error", .text, .string f.error⟩]

/-- How often a rule was called in all files, and how long it took. -/
structure RuleTotal where
  /-- The name of the rule. -/
  rule : String
  /-- The time in milliseconds. -/
  totalMs : Float
  /-- The number of calls. -/
  calls : Int
deriving Repr

/-- Adds the time and the calls of a rule to a list of sums. -/
def addTiming (t : RuleTotal) : List RuleTotal → List RuleTotal
  | [] => [⟨t.rule, 0.0 + t.totalMs, t.calls⟩]
  | s :: rest =>
    if s.rule = t.rule then ⟨s.rule, s.totalMs + t.totalMs, s.calls + t.calls⟩ :: rest
    else s :: addTiming t rest

/-- The time and the calls of a rule in a file, unless the time is too large to be added. -/
def timingOf? (t : RuleTiming) : Option RuleTotal :=
  t.totalMs.toFloat?.map (fun ms => ⟨t.rule, ms, t.calls⟩)

/-- The sums of the times and calls of each rule over all files. -/
def totalsOf? (results : List FileResult) : Option (List RuleTotal) :=
  ((results.flatMap (·.timing)).mapM timingOf?).map
    (fun timings => timings.foldl (fun sums t => addTiming t sums) [])

/-- The time that all files took. -/
def elapsedOf? (results : List FileResult) : Option Number :=
  Number.sum? (results.map (·.elapsedMs))

/-- The sums of a rule as a document. -/
def totalDocument (t : RuleTotal) : String × Document :=
  (t.rule, .object [("total_ms", .float t.totalMs), ("call_count", .int t.calls)])

/-- The names of the rules that were called. -/
def nameFields (totals : List RuleTotal) : List Field :=
  totals.map (fun t => ⟨t.rule, .text, .string t.rule⟩)

/-- The time that all files took, as a float. -/
def elapsedTime (elapsed : Number) : Except Fault Float :=
  match elapsed.toFloat? with
  | some x => .ok x
  | none => .error .outOfRange

/-- The fields of a report that tell about the whole of it. -/
def headFields (results : List FileResult) (rulesCount : Int) : List Field := [
  ⟨"protocol", .text, .string protocolVersion⟩,
  ⟨"engine_version", .text, .string engineVersion⟩,
  ⟨"files_scanned", .atLeast 0, .int (results.length : Nat)⟩,
  ⟨"rules_run", .atLeast 0, .int rulesCount⟩]

section

variable [Machine] (p : Protocol)

/-- A finding as a record.  The arguments are shown first. -/
def findingDocument (f : Finding) : Except Fault Document := do
  let arguments ← Fault.told (Value.texts f.arguments)
  p.record (findingFields f arguments)

/-- A failure as a record. -/
def failureDocument (f : Failure) : Except Fault Document := p.record (failureFields f)

/-- The records of some things, one after the other, up to the first that cannot be made. -/
def recordsOf {α : Type} (record : α → Except Fault Document) :
    List α → Except Fault (List Document)
  | [] => .ok []
  | a :: rest => do
    let first ← record a
    let others ← recordsOf record rest
    return first :: others

/-- The machine-readable report.  It fails if a time is too large to be added, if an argument of a
finding has no text, or if a field does not hold what it has to hold. -/
def report (results : List FileResult) (rulesCount : Int) : Except Fault Document := do
  let some totals := totalsOf? results | throw .overflow
  let findings ← recordsOf (findingDocument p) (findingsOf results)
  let failures ← recordsOf (failureDocument p) (failuresOf results)
  let some elapsed := elapsedOf? results | throw .overflow
  let times ← p.fields [⟨"total_ms", .time, .float (← elapsedTime elapsed)⟩]
  let _ ← p.fields (nameFields totals)
  let head ← p.fields (headFields results rulesCount)
  return .object (head ++ [
    ("findings", .array findings),
    ("failures", .array failures),
    ("metrics", .object (times ++ [("rules", .object (totals.map totalDocument))]))])

/-- The output in a format. -/
def render (results : List FileResult) (format : String) (rulesCount : Int) :
    Except Fault String :=
  if format = "json" then (report p results rulesCount).map p.write
  else if format = "text" then Fault.told (text results)
  else .error (.unknownFormat format)

end

end Output

end TreeLint
