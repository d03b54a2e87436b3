/-
What strict mode does not allow.

A report with a wrong number of arguments, a report of a kind that its rule does not
declare, and a handler that fails with a programming fault are allowed outside strict
mode only: `Event.offence?`.  Until one of them happens a script does the same in both
modes, and if it lets the faults of its reports through, the first of them ends it in
strict mode: `Script.run_strictly`.

A number of expected arguments that is too long for a text is no matter of strict
mode: such a report fails in both modes with a fault of another class.

Rules that register without a fault in strict mode, and let the faults of their reports
through, register alike in both modes: `RuleSet.enrollAll_strictly`.
-/
import TreeLint.Proofs.Rule.Enrollment
import TreeLint.Proofs.Run.Simulation
namespace TreeLint

/-! ### What strict mode does not allow -/

/-- Whether a rule of a list declares kinds, but not that of a report under its name. -/
def Report.isUndeclared (rules : List Rule) (report : Report) : Bool :=
  rules.any fun r => r.name? == some report.rule && !r.kindIds.contains report.code.id

/-- The fault of a report that is refused in strict mode only: first the number of arguments is
looked at, then the kind.  A number that is too long for a text is refused in both modes. -/
def Report.offence? (rules : List Rule) (report : Report) : Option Fault :=
  match report.code.arity with
  | .error _ => none
  | .ok arity =>
    if report.arguments.length ≠ arity then
      match Value.decimal arity with
      | .error _ => none
      | .ok expected =>
        some (.argumentCount report.code.id expected (toString report.arguments.length))
    else if report.isUndeclared rules then some (.undeclared report.rule report.code.id)
    else none

/-- The fault of an event that strict mode does not allow. -/
def Event.offence? (rules : List Rule) : Event → Option Fault
  | .reported report _ => report.offence? rules
  | .registered .. => none
  | .failed f => if f.isProgramming then some f else none

/-- Whatever it is answered, a script comes to fail with a fault. -/
def Script.FailsWith (f : Fault) : Script → Prop
  | .done => False
  | .fail g => g = f
  | .report _ next => ∀ answer, (next answer).FailsWith f
  | .register _ _ _ _ next => ∀ answer, (next answer).FailsWith f
  | .extendsClass _ _ _ next => ∀ answer, (next answer).FailsWith f
  | .locate _ next => ∀ place, (next place).FailsWith f

/-- A script that fails with the fault of its report when a report fails. -/
def Script.LetsThrough : Script → Prop
  | .done => True
  | .fail _ => True
  | .report _ next =>
    (∀ f, (next (.error f)).FailsWith f) ∧ ∀ answer, (next answer).LetsThrough
  | .register _ _ _ _ next => ∀ answer, (next answer).LetsThrough
  | .extendsClass _ _ _ next => ∀ answer, (next answer).LetsThrough
  | .locate _ next => ∀ place, (next place).LetsThrough

/-- A rule that lets through the faults of its reports, when it registers and when its handlers are
called. -/
def Rule.LetsThrough (r : Rule) : Prop :=
  r.SetsUp fun _ script => script.LetsThrough ∧
    script.AddsOnly fun reg => ∀ handler, reg.handler = some handler →
      ∀ context site, (handler context site).LetsThrough

/-- A rule that adds handlers from a list makes no reports while it does. -/
lemma Script.letsThrough_addAll (regs : List Registration) : (addAll regs).LetsThrough := by
  induction regs with
  | nil => trivial
  | cons reg rest ih =>
    intro answer
    cases answer with
    | error f => trivial
    | ok _ => exact ih

lemma Report.isProgramming_of_offence? {rules : List Rule} {report : Report} {f : Fault}
    (h : report.offence? rules = some f) : f.isProgramming = true := by
  unfold offence? at h
  split at h
  · cases h
  · split at h
    · split at h
      · cases h
      · simp only [Option.some.injEq] at h
        subst h
        rfl
    · split at h
      · cases h
        rfl
      · cases h

lemma Event.isProgramming_of_offence? {rules : List Rule} {e : Event} {f : Fault}
    (h : e.offence? rules = some f) : f.isProgramming = true := by
  cases e with
  | reported report answer => exact Report.isProgramming_of_offence? h
  | registered kind rule answer => cases h
  | failed g =>
    simp only [offence?] at h
    split at h
    · cases h
      assumption
    · cases h

/-! ### The reporter -/

namespace Reporter

/-- The same reporter in strict mode. -/
def strictly (r : Reporter) : Reporter := { r with strict := true }

/-- Whether a reporter knows what some rules declare, and nothing else. -/
def Knows (rules : List Rule) (r : Reporter) : Prop :=
  ∀ name ids, r.declared.lookup name = some ids ↔
    ∃ rule ∈ rules, rule.name? = some name ∧ rule.kindIds = ids

variable {rules : List Rule} {r : Reporter} {report : Report}

/-- A reporter that knows the rules can tell whether a kind is declared. -/
lemma Knows.isUndeclared_eq (hknows : r.Knows rules) (report : Report) :
    report.isUndeclared rules = match r.declared.lookup report.rule with
      | some ids => !ids.contains report.code.id
      | none => false := by
  have hrule : ∀ rule ∈ rules, rule.name? = some report.rule →
      r.declared.lookup report.rule = some rule.kindIds :=
    fun rule hrule hname => (hknows report.rule rule.kindIds).2 ⟨rule, hrule, hname, rfl⟩
  rcases hlookup : r.declared.lookup report.rule with _ | ids
  · refine List.any_eq_false.2 fun rule hmem h => ?_
    rw [Bool.and_eq_true, beq_iff_eq] at h
    have hsome := hrule rule hmem h.1
    rw [hlookup] at hsome
    cases hsome
  · obtain ⟨rule, hmem, hname, rfl⟩ := (hknows report.rule ids).1 hlookup
    rw [Bool.eq_iff_iff]
    constructor
    · intro hundeclared
      obtain ⟨rule', hmem', h⟩ := List.any_eq_true.1 hundeclared
      rw [Bool.and_eq_true, beq_iff_eq] at h
      have hsome := hrule rule' hmem' h.1
      rw [hlookup] at hsome
      rw [Option.some.inj hsome]
      exact h.2
    · intro hnot
      refine List.any_eq_true.2 ⟨rule, hmem, ?_⟩
      rw [Bool.and_eq_true, beq_iff_eq]
      exact ⟨hname, hnot⟩

/-- A strict reporter refuses the kinds that are not declared. -/
lemma vocabularyFault?_strictly (hknows : r.Knows rules) (report : Report) :
    r.strictly.vocabularyFault? report =
      if report.isUndeclared rules then some (.undeclared report.rule report.code.id)
      else none := by
  have hdeclared : r.strictly.declared = r.declared := rfl
  rw [vocabularyFault?, if_pos (show r.strictly.strict = true from rfl),
    hknows.isUndeclared_eq report, hdeclared]
  rcases r.declared.lookup report.rule with _ | ids
  · rfl
  · by_cases hmem : report.code.id ∈ ids <;> simp [hmem]

/-- A strict reporter refuses what strict mode does not allow, and else what it refuses outside
strict mode. -/
lemma refusal?_strictly (hknows : r.Knows rules) (hlenient : r.strict = false) (report : Report) :
    r.strictly.refusal? report = (report.offence? rules).or (r.refusal? report) := by
  have hvocabulary := vocabularyFault?_of_lenient hlenient report
  have hstrict : r.strictly.strict = true := rfl
  unfold refusal? Report.offence?
  rcases harity : report.code.arity with f | arity
  · rfl
  · simp only [vocabularyFault?_strictly hknows, hvocabulary, countFault?, hlenient, hstrict]
    by_cases hcount : report.arguments.length = arity
    · by_cases hundeclared : report.isUndeclared rules = true <;> simp [hcount, hundeclared]
    · rcases Value.decimal arity with why | expected <;> simp [hcount]

variable [Machine]

/-- What is recorded does not depend on the mode. -/
lemma record_strictly (r : Reporter) (report : Report) :
    r.strictly.record report = ((r.record report).1, (r.record report).2.strictly) := by
  have hfull : r.strictly.isFull = r.isFull := rfl
  have hseen : r.strictly.seen = r.seen := rfl
  have hfinding : r.strictly.finding report = r.finding report := rfl
  unfold record
  rw [hfull, hseen, hfinding]
  split
  · rfl
  · split
    · rfl
    · rcases r.finding report <;> rfl

/-- What strict mode does not allow is refused by a strict reporter. -/
lemma report_strictly_of_offence (hknows : r.Knows rules) (hlenient : r.strict = false) {f : Fault}
    (h : report.offence? rules = some f) : (r.strictly.report report).1 = .error f := by
  rw [Reporter.report, refusal?_strictly hknows hlenient, h]
  rfl

/-- Any other report is taken alike. -/
lemma report_strictly (hknows : r.Knows rules) (hlenient : r.strict = false)
    (h : report.offence? rules = none) :
    r.strictly.report report = ((r.report report).1, (r.report report).2.strictly) := by
  rw [Reporter.report, Reporter.report, refusal?_strictly hknows hlenient, h, Option.none_or]
  rcases r.refusal? report with _ | f
  · exact r.record_strictly report
  · rfl

/-- A strict reporter fails with a report, or takes it like one that is not strict. -/
lemma report_strictly_cases (hlenient : r.strict = false) (report : Report) :
    (∃ f, (r.strictly.report report).1 = .error f) ∨
      r.strictly.report report = ((r.report report).1, (r.report report).2.strictly) := by
  rcases hstrictly : r.strictly.refusal? report with _ | f
  · right
    have hrefusal : r.refusal? report = none := by
      unfold refusal? at hstrictly ⊢
      rcases harity : report.code.arity with f | arity <;> rw [harity] at hstrictly
      · cases hstrictly
      · have hvocabulary := vocabularyFault?_of_lenient hlenient report
        have hstrict : r.strictly.strict = true := rfl
        simp only [countFault?, hlenient, hstrict, hvocabulary] at hstrictly ⊢
        by_cases hcount : report.arguments.length = arity
        · simp only [hcount, if_true]
        · rcases hdecimal : Value.decimal arity with why | expected <;>
            simp [hcount, hdecimal] at hstrictly ⊢
    rw [Reporter.report, Reporter.report, hstrictly, hrefusal]
    exact r.record_strictly report
  · left
    exact ⟨f, by rw [Reporter.report, hstrictly]⟩

end Reporter

/-! ### One script in both modes -/

/-- The same session in strict mode. -/
def Session.strictly (s : Session) : Session := { s with reporter := s.reporter.strictly }

/-- A session of some rules outside strict mode. -/
structure Session.IsLenient (rules : List Rule) (s : Session) : Prop where
  lenient : s.reporter.strict = false
  knows : s.reporter.Knows rules
  frozen : s.registry.frozen = true

section

variable [Machine]

/-- A session outside strict mode stays outside. -/
lemma Session.lenient_invariant :
    Session.Invariant (fun _ => True) (fun _ => True) (fun s => s.reporter.strict = false) where
  report hs _ := (Reporter.settings_report _ _).2.1.trans hs
  add hs _ _ := hs
  question hs := hs

/-- A session of some rules outside strict mode stays one. -/
lemma Session.isLenient_invariant (rules : List Rule) :
    Session.Invariant (fun _ => True) (fun _ => True) (Session.IsLenient rules) where
  report := by
    intro s r hs _
    obtain ⟨-, hstrict, -, -, hdeclared⟩ := s.reporter.settings_report r
    refine ⟨hstrict.trans hs.lenient, ?_, hs.frozen⟩
    simp only [afterReport, Reporter.Knows, hdeclared]
    exact hs.knows
  add hs _ hadd := by
    rw [Registry.add_of_frozen hs.frozen] at hadd
    cases hadd
  question hs := ⟨hs.lenient, hs.knows, hs.frozen⟩

namespace Script

variable {rules : List Rule} {s : Session} {owner : String}

/-- A script that comes to fail with a fault does. -/
lemma FailsWith.run {f : Fault} {script : Script} (h : script.FailsWith f) (owner : String)
    (links : Links) (s : Session) : (script.run owner links s).1 = some f := by
  induction script generalizing s with
  | done => cases h
  | fail g =>
    cases h
    rfl
  | report r next ih => exact ih _ (h _) _
  | register kind rule callable handler next _ ih =>
    rcases hadd : s.registry.add owner ⟨kind, rule, if callable then some handler else none⟩
      with g | registry <;>
      simp only [Script.run, hadd] <;> exact ih _ (h _) _
  | extendsClass type name library next ih => exact ih _ (h _) _
  | locate node next ih => exact ih _ (h _) _

/-- In strict mode a script ends with the first of its events that is not allowed; if there is none,
it does the same in both modes and does not fail with a programming fault. -/
theorem run_strictly (owner : String) (links : Links) (script : Script)
    (hthrough : script.LetsThrough) (hs : s.IsLenient rules) :
    (∀ f, (script.events owner links s).findSome? (Event.offence? rules) = some f →
      (script.run owner links s.strictly).1 = some f) ∧
    ((script.events owner links s).findSome? (Event.offence? rules) = none →
      script.run owner links s.strictly =
          ((script.run owner links s).1, (script.run owner links s).2.strictly) ∧
        ∀ f, (script.run owner links s).1 = some f → f.isProgramming = false) := by
  induction script generalizing s with
  | done =>
    refine ⟨fun f hf => ?_, fun _ => ⟨rfl, fun f hf => ?_⟩⟩
    · cases hf
    · cases hf
  | fail g =>
    have hevents : ((Script.fail g).events owner links s).findSome? (Event.offence? rules) =
        if g.isProgramming then some g else none := by
      rw [events, List.findSome?_singleton]
      rfl
    rw [hevents]
    cases hprogramming : g.isProgramming with
    | true =>
      refine ⟨fun f hf => ?_, fun hnone => ?_⟩
      · cases hf
        rfl
      · cases hnone
    | false =>
      refine ⟨fun f hf => ?_, fun _ => ⟨rfl, fun f hf => ?_⟩⟩
      · cases hf
      · cases hf
        exact hprogramming
  | report r next ih =>
    obtain ⟨hfails, hnext⟩ := hthrough
    rw [run_report, run_report, events, List.findSome?_cons]
    rcases hoffence : r.offence? rules with _ | g
    -- both reporters give the same answer, and the rest of the script is run alike
    · have hreport : s.strictly.reporter.report r =
          ((s.reporter.report r).1, (s.reporter.report r).2.strictly) :=
        Reporter.report_strictly hs.knows hs.lenient hoffence
      have hanswer : (s.strictly.reporter.report r).1 = (s.reporter.report r).1 := by
        rw [hreport]
      have hafter : s.strictly.afterReport r = (s.afterReport r).strictly := by
        rw [Session.afterReport, hreport]
        rfl
      have hoffence' : (Event.reported r (s.reporter.report r).1).offence? rules = none := hoffence
      rw [hanswer, hafter, hoffence']
      exact ih _ (hnext _) ((Session.isLenient_invariant rules).report hs trivial)
    -- the strict reporter refuses the report, and the script lets the fault through
    · have hanswer : (s.strictly.reporter.report r).1 = .error g :=
        Reporter.report_strictly_of_offence hs.knows hs.lenient hoffence
      have hoffence' : (Event.reported r (s.reporter.report r).1).offence? rules = some g :=
        hoffence
      rw [hanswer, hoffence']
      refine ⟨fun f hf => ?_, fun hnone => ?_⟩
      · cases hf
        exact (hfails g).run owner links _
      · cases hnone
  | register kind rule callable handler next _ ih =>
    rw [events_register_of_frozen hs.frozen, run_register_of_frozen hs.frozen,
      run_register_of_frozen (s := s.strictly) hs.frozen, List.findSome?_cons]
    exact ih _ (hthrough _) hs
  | extendsClass type name library next ih =>
    exact ih _ (hthrough _) (s := s.afterQuestion type name library)
      ((Session.isLenient_invariant rules).question hs)
  | locate node next ih => exact ih _ (hthrough _) hs

/-- A script that returns in strict mode, and lets the faults of its reports through, does the same
in both modes. -/
theorem run_strictly_of_returned (owner : String) (links : Links) (script : Script)
    (hthrough : script.LetsThrough) (hlenient : s.reporter.strict = false)
    (hreturns : (script.run owner links s.strictly).1 = none) :
    (script.run owner links s).1 = none ∧
      (script.run owner links s.strictly).2 = (script.run owner links s).2.strictly := by
  induction script generalizing s with
  | done => exact ⟨rfl, rfl⟩
  | fail f => cases hreturns
  | report r next ih =>
    obtain ⟨hfails, hnext⟩ := hthrough
    rw [run_report] at hreturns
    rw [run_report, run_report]
    rcases Reporter.report_strictly_cases hlenient r with ⟨f, hf⟩ | hsame
    · have hfailed : (s.strictly.reporter.report r).1 = .error f := hf
      rw [hfailed, (hfails f).run owner links] at hreturns
      cases hreturns
    · have hanswer : (s.strictly.reporter.report r).1 = (s.reporter.report r).1 := by
        rw [Session.strictly, hsame]
      have hafter : s.strictly.afterReport r = (s.afterReport r).strictly := by
        rw [Session.afterReport, Session.strictly, hsame]
        rfl
      rw [hanswer, hafter] at hreturns ⊢
      exact ih _ (hnext _) (Session.lenient_invariant.report hlenient trivial) hreturns
  | register kind rule callable handler next _ ih =>
    rcases hadd : s.registry.add owner ⟨kind, rule, if callable then some handler else none⟩
      with f | registry
    · have hadd' : s.strictly.registry.add owner
          ⟨kind, rule, if callable then some handler else none⟩ = .error f := hadd
      simp only [run, hadd, hadd'] at hreturns ⊢
      exact ih _ (hthrough _) hlenient hreturns
    · have hadd' : s.strictly.registry.add owner
          ⟨kind, rule, if callable then some handler else none⟩ = .ok registry := hadd
      simp only [run, hadd, hadd'] at hreturns ⊢
      exact ih _ (hthrough _) (s := s.withRegistry registry) hlenient hreturns
  | extendsClass type name library next ih =>
    exact ih _ (hthrough _) (s := s.afterQuestion type name library) hlenient hreturns
  | locate node next ih => exact ih _ (hthrough _) hlenient hreturns

end Script

/-! ### Rules that register in both modes -/

namespace RuleSet

variable {context : Context} {links : Links} {rule : Rule} {rules : List Rule} {s : Session}
  {warnings : List String}

/-- A rule that registers in strict mode registers alike in both modes. -/
lemma enroll_strictly (warnings' : List String) (hthrough : rule.LetsThrough)
    (hlenient : s.reporter.strict = false)
    (hok : (enroll context links rule ⟨s.strictly, warnings⟩).1 = .ok ()) :
    (enroll context links rule ⟨s, warnings'⟩).1 = .ok () ∧
      (enroll context links rule ⟨s, warnings'⟩).2.session.reporter.strict = false ∧
      (enroll context links rule ⟨s.strictly, warnings⟩).2.session =
        (enroll context links rule ⟨s, warnings'⟩).2.session.strictly := by
  obtain ⟨card, setup, hcard, hsetup, hkinds, hrun, -⟩ := enroll_of_ok hok
  have hscript := (hthrough card setup hcard hsetup context).1
  have hreturns : ((setup context).run card.name links (declared rule s).strictly).1 = none :=
    congrArg Prod.fst hrun
  obtain ⟨hended, hafter⟩ := (setup context).run_strictly_of_returned card.name links hscript
    (s := declared rule s) hlenient hreturns
  obtain ⟨hok', hsession⟩ := enroll_of_returned (b := ⟨s, warnings'⟩) hcard hsetup hkinds
    (Prod.ext hended rfl)
  refine ⟨hok', ?_, ?_⟩
  · rw [hsession]
    exact run_preserves_of_forall Session.lenient_invariant card.name links (setup context)
      (s := declared rule s) hlenient
  · rw [hsession, ← hafter]
    exact (congrArg Prod.snd hrun).symm

/-- Rules that register in strict mode register alike in both modes. -/
theorem enrollAll_strictly (warnings' : List String) (hthrough : ∀ rule ∈ rules, rule.LetsThrough)
    (hlenient : s.reporter.strict = false)
    (hok : (enrollAll context links rules ⟨s.strictly, warnings⟩).1 = .ok ()) :
    (enrollAll context links rules ⟨s, warnings'⟩).1 = .ok () ∧
      (enrollAll context links rules ⟨s, warnings'⟩).2.session.reporter.strict = false ∧
      (enrollAll context links rules ⟨s.strictly, warnings⟩).2.session =
        (enrollAll context links rules ⟨s, warnings'⟩).2.session.strictly := by
  induction rules generalizing s warnings warnings' with
  | nil => exact ⟨rfl, hlenient, rfl⟩
  | cons rule rest ih =>
    obtain ⟨hrule, hrest⟩ := List.forall_mem_cons.1 hthrough
    obtain ⟨hfirst, hothers⟩ := (enrollAll_cons_fst_eq_ok_iff rule rest).1 hok
    obtain ⟨hfirst', hlenient', hsession⟩ := enroll_strictly warnings' hrule hlenient hfirst
    rw [enrollAll_cons_of_ok hfirst, enrollAll_cons_of_ok hfirst']
    rcases henroll : enroll context links rule ⟨s.strictly, warnings⟩ with ⟨e, strictly⟩
    rcases henroll' : enroll context links rule ⟨s, warnings'⟩ with ⟨e', leniently⟩
    rw [henroll, henroll'] at hsession
    rw [henroll] at hothers
    rw [henroll'] at hlenient'
    obtain ⟨session, warnings₁⟩ := strictly
    obtain ⟨session', warnings₂⟩ := leniently
    simp only at hsession hothers hlenient' ⊢
    subst hsession
    exact ih _ hrest hlenient' hothers

end RuleSet

end

end TreeLint
