/-
What a script does, step by step.

`Script.events` lists the reports of a script, its attempts to add handlers and the
fault it fails with, each with the answer that it got in the session in which the
script ran.  The findings, the duplicates and the registry that a script leaves
behind are read off its events; once the registry is frozen, every attempt to add a
handler is refused and the registry stays as it is.
-/
import Mathlib.Tactic.Common
import TreeLint.Proofs.Except
import TreeLint.Run.Traversal
namespace TreeLint

/-- A step of a script that others can see, with the answer to it. -/
inductive Event where
  /-- The script reported. -/
  | reported (report : Report) (answer : Except Fault (Option Finding))
  /-- The script tried to add a handler for a node kind under the name of a rule. -/
  | registered (kind : Value) (rule : String) (answer : Except Fault Unit)
  /-- The script failed. -/
  | failed (fault : Fault)

namespace Event

/-- The finding that a report made. -/
def finding? : Event → Option Finding
  | .reported _ (.ok answer) => answer
  | _ => none

/-- Whether a report was taken without making a finding. -/
def isIdle : Event → Bool
  | .reported _ (.ok none) => true
  | _ => false

end Event

namespace Reporter

/-- Outside strict mode any rule may report any kind. -/
lemma vocabularyFault?_of_lenient {r : Reporter} (hlenient : r.strict = false) (report : Report) :
    r.vocabularyFault? report = none := by
  rw [vocabularyFault?, hlenient, if_neg Bool.false_ne_true]

variable [Machine] (r : Reporter) (report : Report)

/-- The finding of a report has its message and its location. -/
lemma finding_eq_ok_iff {f : Finding} : r.finding report = .ok f ↔
    ∃ location message, r.tree.location report.span.start = .ok location ∧
      report.code.format report.arguments = .ok message ∧
      f = r.findingOf report message location := by
  rw [finding]
  simp only [Except.bind_eq_ok_iff, pure, Except.pure, Except.ok.injEq, ← exists_and_left,
    eq_comm (b := f)]

lemma key_of_finding {f : Finding} (h : r.finding report = .ok f) : f.key = report.key := by
  obtain ⟨location, message, -, -, rfl⟩ := (r.finding_eq_ok_iff report).1 h
  rfl

/-- What a report can do: it fails, or its key is known, or its key is new and the limit is reached,
or it makes a finding. -/
lemma report_cases :
    (∃ f, r.report report = (.error f, r)) ∨
    (report.key ∈ r.seen ∧
      r.report report = (.ok none, { r with duplicates := r.duplicates + 1 })) ∨
    (report.key ∉ r.seen ∧ r.isFull = true ∧
      r.report report = (.ok none, { r with dropped := r.dropped + 1 })) ∨
    (report.key ∉ r.seen ∧ r.isFull = false ∧ ∃ finding, r.finding report = .ok finding ∧
      r.report report = (.ok (some finding), r.withFinding finding)) := by
  unfold Reporter.report record
  rcases r.refusal? report with _ | f
  -- nothing is wrong with the report itself: first the key is looked up, then the limit
  · by_cases hseen : report.key ∈ r.seen
    · exact .inr (.inl ⟨hseen, by simp [hseen]⟩)
    · rcases hfull : r.isFull with _ | _
      · rcases hfinding : r.finding report with f | finding
        · exact .inl ⟨f, by simp [hseen]⟩
        · exact .inr (.inr (.inr ⟨hseen, rfl, finding, rfl, by simp [hseen]⟩))
      · exact .inr (.inr (.inl ⟨hseen, rfl, by simp [hseen]⟩))
  · exact .inl ⟨f, rfl⟩

/-- A report leaves what the reporter was made with. -/
lemma settings_report :
    (r.report report).2.tree = r.tree ∧ (r.report report).2.strict = r.strict ∧
      (r.report report).2.severities = r.severities ∧ (r.report report).2.limit = r.limit ∧
      (r.report report).2.declared = r.declared := by
  rcases r.report_cases report with ⟨f, h⟩ | ⟨-, h⟩ | ⟨-, -, h⟩ | ⟨-, -, finding, -, h⟩ <;>
    rw [h] <;> exact ⟨rfl, rfl, rfl, rfl, rfl⟩

/-- The findings after a report are those before it and the one that it made. -/
lemma findings_report :
    (r.report report).2.findings =
      r.findings ++ (Event.reported report (r.report report).1).finding?.toList := by
  rcases r.report_cases report with ⟨f, h⟩ | ⟨-, h⟩ | ⟨-, -, h⟩ | ⟨-, -, finding, -, h⟩ <;>
    simp [h, Event.finding?, withFinding]

/-- A report adds the key of the finding that it made. -/
lemma seen_report :
    (r.report report).2.seen =
      ((Event.reported report (r.report report).1).finding?.map Finding.key).toList ++ r.seen := by
  rcases r.report_cases report with ⟨f, h⟩ | ⟨-, h⟩ | ⟨-, -, h⟩ | ⟨-, -, finding, -, h⟩ <;>
    simp [h, Event.finding?, withFinding]

/-- The finding of a report has the key that the report asks for. -/
lemma key_of_finding? {f : Finding}
    (hf : (Event.reported report (r.report report).1).finding? = some f) : f.key = report.key := by
  rcases r.report_cases report with ⟨g, h⟩ | ⟨-, h⟩ | ⟨-, -, h⟩ | ⟨-, -, finding, hfinding, h⟩ <;>
    rw [h] at hf <;> cases hf
  exact r.key_of_finding report hfinding

/-- Without a limit, exactly the reports that make no finding are counted as duplicates. -/
lemma duplicates_report (hlimit : r.limit = none) :
    (r.report report).2.duplicates =
      r.duplicates + [Event.reported report (r.report report).1].countP Event.isIdle := by
  have hfull : r.isFull = false := by rw [isFull, hlimit]
  rcases r.report_cases report with
    ⟨f, h⟩ | ⟨-, h⟩ | ⟨-, hfull', h⟩ | ⟨-, -, finding, -, h⟩
  · simp [h, Event.isIdle]
  · simp [h, Event.isIdle]
  · rw [hfull] at hfull'
    cases hfull'
  · simp [h, Event.isIdle, withFinding]

end Reporter

section

variable [Machine]

/-- The session after a report. -/
def Session.afterReport (s : Session) (r : Report) : Session :=
  { s with reporter := (s.reporter.report r).2 }

/-- The session after a question about supertypes. -/
def Session.afterQuestion (s : Session) (type : Ty) (name library : String) : Session :=
  { s with supertypes := (s.supertypes.extendsClass type name library).2 }

end

namespace Script

variable [Machine]

/-- What a script does in a session, step by step. -/
def events (owner : String) (links : Links) : Script → Session → List Event
  | .done, _ => []
  | .fail f, _ => [.failed f]
  | .report r next, s =>
    let answer := (s.reporter.report r).1
    .reported r answer :: (next answer).events owner links (s.afterReport r)
  | .register kind rule callable handler next, s =>
    match s.registry.add owner ⟨kind, rule, if callable then some handler else none⟩ with
    | .error f => .registered kind rule (.error f) :: (next (.error f)).events owner links s
    | .ok registry =>
      .registered kind rule (.ok ()) ::
        (next (.ok ())).events owner links { s with registry := registry }
  | .extendsClass type name library next, s =>
    (next (s.supertypes.extendsClass type name library).1).events owner links
      (s.afterQuestion type name library)
  | .locate node next, s => (next (links.site node)).events owner links s

variable {owner : String} {links : Links} {s : Session}

@[simp] lemma run_report (r : Report) (next : Except Fault (Option Finding) → Script) :
    (Script.report r next).run owner links s =
      (next (s.reporter.report r).1).run owner links (s.afterReport r) := rfl

@[simp] lemma run_extendsClass (type : Ty) (name library : String) (next : Bool → Script) :
    (Script.extendsClass type name library next).run owner links s =
      (next (s.supertypes.extendsClass type name library).1).run owner links
        (s.afterQuestion type name library) := rfl

/-- A report whose answer is not looked at, and that does not fail. -/
lemma reportOnce_of_ok (owner : String) (links : Links) {r : Report} {answer : Option Finding}
    (h : (s.reporter.report r).1 = .ok answer) :
    (reportOnce r).events owner links s = [.reported r (.ok answer)] ∧
      (reportOnce r).run owner links s = (none, s.afterReport r) := by
  rw [reportOnce, events, run_report, h]
  exact ⟨rfl, rfl⟩

/-! ### What a script leaves with the reporter -/

/-- The findings after a script are those before it and those that its reports made. -/
lemma findings_run (script : Script) (s : Session) :
    (script.run owner links s).2.reporter.findings =
      s.reporter.findings ++ (script.events owner links s).filterMap Event.finding? := by
  induction script generalizing s with
  | done => simp [run, events]
  | fail f => simp [run, events, Event.finding?]
  | report r next ih =>
    rw [run_report, ih, events, Session.afterReport]
    rw [s.reporter.findings_report r, List.append_assoc, List.filterMap_cons]
    cases (Event.reported r (s.reporter.report r).1).finding? <;> rfl
  | register kind rule callable handler next _ ih =>
    rcases hadd : s.registry.add owner ⟨kind, rule, if callable then some handler else none⟩
      with f | registry <;>
      simp only [run, events, hadd] <;> exact ih _ _
  | extendsClass type name library next ih => exact ih _ _
  | locate node next ih => exact ih _ _

/-! ### Once the registry is frozen -/

/-- With a frozen registry, a script goes on as after a refusal when it tries to add a handler. -/
lemma run_register_of_frozen (h : s.registry.frozen = true) (kind : Value) (rule : String)
    (callable : Bool) (handler : Handler) (next : Except Fault Unit → Script) :
    (Script.register kind rule callable handler next).run owner links s =
      (next (.error (.frozen rule))).run owner links s := by
  simp only [run, Registry.add_of_frozen h]

lemma events_register_of_frozen (h : s.registry.frozen = true) (kind : Value) (rule : String)
    (callable : Bool) (handler : Handler) (next : Except Fault Unit → Script) :
    (Script.register kind rule callable handler next).events owner links s =
      .registered kind rule (.error (.frozen rule)) ::
        (next (.error (.frozen rule))).events owner links s := by
  simp only [events, Registry.add_of_frozen h]

/-- A script leaves a frozen registry as it is. -/
lemma registry_run_of_frozen (script : Script) (owner : String) (links : Links)
    (h : s.registry.frozen = true) :
    (script.run owner links s).2.registry = s.registry := by
  induction script generalizing s with
  | done => rfl
  | fail f => rfl
  | report r next ih =>
    rw [run_report]
    exact ih _ (s := s.afterReport r) h
  | register kind rule callable handler next _ ih =>
    rw [run_register_of_frozen h]
    exact ih _ h
  | extendsClass type name library next ih =>
    rw [run_extendsClass]
    exact ih _ (s := s.afterQuestion type name library) h
  | locate node next ih => exact ih _ h

/-- With a frozen registry, every attempt to add a handler is refused. -/
lemma refused_of_frozen (script : Script) (h : s.registry.frozen = true) {kind : Value}
    {rule : String} {answer : Except Fault Unit}
    (hmem : Event.registered kind rule answer ∈ script.events owner links s) :
    answer = .error (.frozen rule) := by
  induction script generalizing s with
  | done => simp [events] at hmem
  | fail f => simp [events] at hmem
  | report r next ih =>
    simp only [events, List.mem_cons, reduceCtorEq, false_or] at hmem
    exact ih _ (s := s.afterReport r) h hmem
  | register kind' rule' callable handler next _ ih =>
    rw [events_register_of_frozen h, List.mem_cons] at hmem
    rcases hmem with hhead | htail
    · cases hhead
      rfl
    · exact ih _ h htail
  | extendsClass type name library next ih =>
    exact ih _ (s := s.afterQuestion type name library) h hmem
  | locate node next ih => exact ih _ h hmem

end Script

end TreeLint
