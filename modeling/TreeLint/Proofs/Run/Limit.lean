/-
What the limit of findings changes.

Take two analyses of a file that differ in their limits, with rules that do not look at
what becomes of a report that does not fail, and that report only what can be told.  Then
a report fails under both limits or under none, so both analyses register the same
handlers, make the same calls and take the same reports.  Each reporter holds the findings
of the first reports of their keys, up to its limit (`Reporter.Took`), so under the lower
limit these are the first of those under the higher one.  Comments take out findings one
by one, and the results are related in the same way: `Analysis.analyzeTree_withLimit`.

An argument without a text makes the difference: its report fails under a limit that lets
it make a finding, and not under one that drops it.  So does a rule that looks at what
becomes of its reports when it registers.
-/
import Mathlib.Data.Finset.Card
import TreeLint.Proofs.Diagnostic.Message
import TreeLint.Proofs.Diagnostic.Reporting
import TreeLint.Proofs.Run.Isolation
import TreeLint.Proofs.Run.Strictness
namespace TreeLint

/-- Whether a limit allows no more than another one; without a limit everything is allowed. -/
def NoHigher (n m : Option Nat) : Prop := ∀ k ∈ m, ∃ j ∈ n, j ≤ k

/-- A script that goes on alike after a report that does not fail, whether a finding was made of
it or not. -/
def Script.IgnoresAnswers : Script → Prop
  | .done => True
  | .fail _ => True
  | .report _ next =>
    (∀ a b, next (.ok a) = next (.ok b)) ∧ ∀ answer, (next answer).IgnoresAnswers
  | .register _ _ _ _ next => ∀ answer, (next answer).IgnoresAnswers
  | .extendsClass _ _ _ next => ∀ answer, (next answer).IgnoresAnswers
  | .locate _ next => ∀ place, (next place).IgnoresAnswers

/-- Handlers that are added from a list are added without a report. -/
lemma Script.ignoresAnswers_addAll (regs : List Registration) : (addAll regs).IgnoresAnswers := by
  induction regs with
  | nil => trivial
  | cons reg rest ih =>
    intro answer
    cases answer with
    | error f => trivial
    | ok _ => exact ih

/-- A rule that does not look at what becomes of its reports, neither when it registers nor when its
handlers are called. -/
def Rule.IgnoresAnswers (r : Rule) : Prop :=
  r.SetsUp fun _ script => script.IgnoresAnswers ∧ script.AddsOnly fun reg =>
    ∀ handler, reg.handler = some handler →
      ∀ context site, (handler context site).IgnoresAnswers

/-- The report of an event, if it did not fail. -/
def Event.taken? : Event → Option Report
  | .reported report (.ok _) => some report
  | _ => none

lemma Event.taken?_reported_ok (report : Report) (answer : Option Finding) :
    (Event.reported report (.ok answer)).taken? = some report := rfl

section

variable [Machine]

/-- Whether every argument of a report has a text. -/
def Report.HasTexts (r : Report) : Prop := ∀ v ∈ r.arguments, ∃ s, v.text = .ok s

/-- A rule whose reports pass only arguments that have a text. -/
def Rule.ReportsTexts (r : Rule) : Prop :=
  r.SetsUp fun _ script => script.ReportsOnly Report.HasTexts ∧ script.AddsOnly fun reg =>
    ∀ handler, reg.handler = some handler →
      ∀ context site, (handler context site).ReportsOnly Report.HasTexts

end

/-! ### Two reporters with the same reports -/

namespace Reporter

variable {n m : Option Nat}

lemma isPrefix_upTo {α : Type} (hle : NoHigher n m) (l : List α) : upTo n l <+: upTo m l := by
  cases m with
  | none =>
    cases n with
    | none => exact List.prefix_rfl
    | some j => exact List.take_prefix j l
  | some k =>
    obtain ⟨j, rfl, hjk⟩ := hle k rfl
    exact List.take_prefix_take_left hjk

lemma length_upTo {α : Type} (n : Option Nat) (l : List α) :
    (upTo n l).length = n.elim l.length (min · l.length) := by
  cases n with
  | none => rfl
  | some k => exact List.length_take

variable [Machine] {start r few many : Reporter} {cap : Option Nat} {reports : List Report}
  {report : Report}

/-- A report makes one finding only. -/
lemma Makes.unique {f g : Finding} (hf : start.Makes report f) (hg : start.Makes report g) :
    f = g := by
  obtain ⟨location, message, hlocation, hmessage, rfl⟩ := hf
  obtain ⟨location', message', hlocation', hmessage', rfl⟩ := hg
  rw [hlocation] at hlocation'
  rw [hmessage] at hmessage'
  cases hlocation'
  cases hmessage'
  rfl

/-- The first reports make the first findings. -/
lemma Makes.isPrefix {reports reports' : List Report} {findings findings' : List Finding}
    (hinitial : reports <+: reports') (h : List.Forall₂ start.Makes reports findings)
    (h' : List.Forall₂ start.Makes reports' findings') : findings <+: findings' := by
  induction h generalizing reports' findings' with
  | nil => exact List.nil_prefix
  | cons hmakes _ ih =>
    obtain ⟨more, rfl⟩ := hinitial
    cases h' with
    | cons hmakes' hrest' =>
      rw [hmakes.unique hmakes']
      exact List.cons_prefix_cons.2 ⟨rfl, ih (List.prefix_append _ _) hrest'⟩

/-- Whether a reporter, fresh at the start, holds what it does after some reports that did not
fail. -/
def Took (start : Reporter) (cap : Option Nat) (reports : List Report) (r : Reporter) : Prop :=
  ∃ made, Holds start cap made r ∧ made.map Entry.report = reports

namespace Took

lemma findings (h : Took start cap reports r) :
    List.Forall₂ start.Makes (upTo cap (Report.firsts [] reports)) r.findings := by
  obtain ⟨made, hholds, rfl⟩ := h
  exact hholds.findings

lemma mem_seen_iff (h : Took start cap reports r) (k : FindingKey) :
    k ∈ r.seen ↔ k ∈ (upTo cap (Report.firsts [] reports)).map Report.key := by
  obtain ⟨made, hholds, rfl⟩ := h
  exact hholds.mem_seen_iff k

lemma tree_eq (h : Took start cap reports r) : r.tree = start.tree := by
  obtain ⟨made, hholds, -⟩ := h
  exact hholds.tree_eq

/-- A report that does not fail is taken. -/
lemma report_ok (h : Took start cap reports r) {answer : Option Finding}
    (hok : (r.report report).1 = .ok answer) :
    Took start cap (reports ++ [report]) (r.report report).2 := by
  obtain ⟨made, hholds, rfl⟩ := h
  have htaken : Entry.isTaken ⟨r, report⟩ = true := by
    rw [Entry.isTaken, Entry.answer, hok]
    rfl
  refine ⟨made ++ [⟨r, report⟩], ?_, by rw [List.map_append, List.map_singleton]⟩
  have hafter := hholds.report_any report
  rwa [List.filter_cons_of_pos htaken, List.filter_nil] at hafter

/-- A reporter has as many findings as there are different keys among its reports, up to the
limit. -/
lemma length_findings (h : Took start cap reports r) :
    r.findings.length = cap.elim (reports.map Report.key).toFinset.card
      (min · (reports.map Report.key).toFinset.card) := by
  have hkeys : (reports.map Report.key).toFinset =
      ((Report.firsts [] reports).map Report.key).toFinset := by
    ext k
    rw [List.mem_toFinset, List.mem_toFinset, Report.mem_map_key_firsts]
    exact (and_iff_left List.not_mem_nil).symm
  rw [← h.findings.length_eq, length_upTo, hkeys,
    List.toFinset_card_of_nodup (Report.nodup_map_key_firsts _ _), List.length_map]

end Took

omit [Machine] in
/-- Reporters that agree in their mode and in what was declared refuse the same reports. -/
lemma refusal?_congr (hstrict : few.strict = many.strict)
    (hdeclared : few.declared = many.declared) (report : Report) :
    few.refusal? report = many.refusal? report := by
  have hcount : ∀ arity, few.countFault? report arity = many.countFault? report arity := by
    intro arity
    simp only [countFault?, hstrict]
  have hvocabulary : few.vocabularyFault? report = many.vocabularyFault? report := by
    simp only [vocabularyFault?, hstrict, hdeclared]
  simp only [refusal?, hcount, hvocabulary]

/-- On a file with line starts a report that is not refused does not fail, if every argument has a
text. -/
lemma exists_answer (hrefusal : r.refusal? report = none) (hstarts : r.tree.lineStarts.size ≠ 0)
    (htexts : report.HasTexts) : ∃ answer, (r.report report).1 = .ok answer := by
  obtain ⟨l, hl⟩ := Traversal.exists_location hstarts report.span.start
  obtain ⟨arity, harity⟩ : ∃ arity, report.code.arity = .ok arity := by
    rcases harity : report.code.arity with f | arity
    · simp only [refusal?, harity] at hrefusal
      cases hrefusal
    · exact ⟨arity, rfl⟩
  obtain ⟨message, hmessage⟩ := DiagnosticKind.exists_format_of_texts harity htexts
  have hfinding := (r.finding_eq_ok_iff report).2 ⟨l, message, hl, hmessage, rfl⟩
  rw [Reporter.report, hrefusal]
  simp only [record, hfinding]
  split
  · exact ⟨none, rfl⟩
  · split
    · exact ⟨none, rfl⟩
    · exact ⟨_, rfl⟩

/-- A report that does not fail is a duplicate exactly if its key is recorded. -/
lemma duplicates_report_of_ok {answer : Option Finding} (h : (r.report report).1 = .ok answer) :
    (r.report report).2.duplicates = r.duplicates + if report.key ∈ r.seen then 1 else 0 := by
  rcases r.report_cases report with
    ⟨f, heq⟩ | ⟨hseen, heq⟩ | ⟨hseen, -, heq⟩ | ⟨hseen, -, finding, -, heq⟩ <;> rw [heq] at h ⊢
  · cases h
  · rw [if_pos hseen]
  · rw [if_neg hseen]
    rfl
  · rw [if_neg hseen]
    rfl

/-- Two reporters that were made alike but for their limits, and took the same reports. -/
structure Tightens (start : Reporter) (n m : Option Nat) (reports : List Report)
    (few many : Reporter) : Prop where
  few_took : Took start n reports few
  many_took : Took start m reports many
  strict_eq : few.strict = many.strict
  declared_eq : few.declared = many.declared
  duplicates_le : few.duplicates ≤ many.duplicates

/-- A report whose arguments have texts fails under both limits, with the same fault, or under none;
then both reporters take it. -/
lemma Tightens.report_both (hstarts : start.tree.lineStarts.size ≠ 0) (hle : NoHigher n m)
    (h : Tightens start n m reports few many) (htexts : report.HasTexts) :
    (∃ f, few.report report = (.error f, few) ∧ many.report report = (.error f, many)) ∨
    ∃ a b, (few.report report).1 = .ok a ∧ (many.report report).1 = .ok b ∧
      Tightens start n m (reports ++ [report]) (few.report report).2 (many.report report).2 := by
  have hsame := refusal?_congr h.strict_eq h.declared_eq report
  rcases hrefusal : few.refusal? report with _ | f
  · obtain ⟨a, ha⟩ := exists_answer hrefusal (by rw [h.few_took.tree_eq]; exact hstarts) htexts
    obtain ⟨b, hb⟩ := exists_answer (hsame.symm.trans hrefusal)
      (by rw [h.many_took.tree_eq]; exact hstarts) htexts
    obtain ⟨-, hstrict, -, -, hdeclared⟩ := few.settings_report report
    obtain ⟨-, hstrict', -, -, hdeclared'⟩ := many.settings_report report
    refine .inr ⟨a, b, ha, hb, h.few_took.report_ok ha, h.many_took.report_ok hb, ?_, ?_, ?_⟩
    · rw [hstrict, hstrict', h.strict_eq]
    · rw [hdeclared, hdeclared', h.declared_eq]
    -- what is recorded under the lower limit is recorded under the higher one
    · have hseen : report.key ∈ few.seen → report.key ∈ many.seen := by
        rw [h.few_took.mem_seen_iff, h.many_took.mem_seen_iff]
        exact fun hmem => ((isPrefix_upTo hle _).map _).subset hmem
      rw [duplicates_report_of_ok ha, duplicates_report_of_ok hb]
      refine Nat.add_le_add h.duplicates_le ?_
      split
      · next hmem => rw [if_pos (hseen hmem)]
      · exact Nat.zero_le _
  · refine .inl ⟨f, ?_, ?_⟩
    · simp only [Reporter.report, hrefusal]
    · simp only [Reporter.report, ← hsame, hrefusal]

end Reporter

/-! ### One script under both limits -/

section

variable [Machine]

/-- Two sessions that differ in the limits of their reporters, and took the same reports. -/
structure Session.Tightens (start : Reporter) (n m : Option Nat) (reports : List Report)
    (few many : Session) : Prop where
  reporter : Reporter.Tightens start n m reports few.reporter many.reporter
  registry_eq : few.registry = many.registry
  supertypes_eq : few.supertypes = many.supertypes

/-- The reports of a script that do not fail. -/
def Script.taken (owner : String) (links : Links) (script : Script) (s : Session) : List Report :=
  (script.events owner links s).filterMap Event.taken?

/-- A script that never reports has no report taken. -/
lemma Script.taken_eq_nil (owner : String) (links : Links) (script : Script)
    (hsilent : script.ReportsOnly fun _ => False) (s : Session) :
    script.taken owner links s = [] := by
  induction script generalizing s with
  | done => rfl
  | fail f => rfl
  | report r next ih => exact hsilent.1.elim
  | register kind rule callable handler next _ ih =>
    rcases hadd : s.registry.add owner ⟨kind, rule, if callable then some handler else none⟩
      with f | registry <;>
      simp only [taken, events, hadd, List.filterMap_cons, Event.taken?] <;>
      exact ih _ (hsilent _) _
  | extendsClass type name library next ih => exact ih _ (hsilent _) _
  | locate node next ih => exact ih _ (hsilent _) _

variable {start : Reporter} {n m : Option Nat} {reports : List Report} {few many : Session}

/-- A script that does not look at what becomes of its reports, and reports only what can be told,
comes to the same end under both limits, and makes the same reports. -/
theorem Script.run_tightens (hstarts : start.tree.lineStarts.size ≠ 0) (hle : NoHigher n m)
    (owner : String) (links : Links) (script : Script) (hignores : script.IgnoresAnswers)
    (htexts : script.ReportsOnly Report.HasTexts) (h : few.Tightens start n m reports many) :
    (script.run owner links few).1 = (script.run owner links many).1 ∧
      script.taken owner links few = script.taken owner links many ∧
      (script.run owner links few).2.Tightens start n m
        (reports ++ script.taken owner links few) (script.run owner links many).2 := by
  induction script generalizing few many reports with
  | done =>
    refine ⟨rfl, rfl, ?_⟩
    rw [taken, events, List.filterMap_nil, List.append_nil]
    exact h
  | fail f =>
    refine ⟨rfl, rfl, ?_⟩
    rw [taken, events, List.filterMap_cons_none rfl, List.filterMap_nil, List.append_nil]
    exact h
  | report r next ih =>
    obtain ⟨hsame, hnext⟩ := hignores
    obtain ⟨hr, hnextTexts⟩ := htexts
    rw [run_report, run_report, taken, taken, events, events]
    rcases h.reporter.report_both hstarts hle hr with
      ⟨f, hfew, hmany⟩ | ⟨a, b, hfew, hmany, hafter⟩
    -- the report fails under both limits, and leaves both reporters as they were
    · have hfew' : few.afterReport r = few := by rw [Session.afterReport, hfew]
      have hmany' : many.afterReport r = many := by rw [Session.afterReport, hmany]
      rw [hfew', hmany', hfew, hmany, List.filterMap_cons_none rfl, List.filterMap_cons_none rfl]
      exact ih _ (hnext _) (hnextTexts _) h
    -- the answers may differ, but the script goes on alike
    · have hafter' : (few.afterReport r).Tightens start n m (reports ++ [r])
          (many.afterReport r) := ⟨hafter, h.registry_eq, h.supertypes_eq⟩
      obtain ⟨hended, htaken, hrest⟩ := ih (.ok a) (hnext _) (hnextTexts _) hafter'
      rw [hfew, hmany, ← hsame a b, List.filterMap_cons_some (Event.taken?_reported_ok r a),
        List.filterMap_cons_some (Event.taken?_reported_ok r b)]
      refine ⟨hended, congrArg (r :: ·) htaken, ?_⟩
      rwa [List.append_assoc, List.singleton_append] at hrest
  | register kind rule callable handler next _ ih =>
    rcases hadd : many.registry.add owner ⟨kind, rule, if callable then some handler else none⟩
      with f | registry
    · simp only [taken, run, events, h.registry_eq, hadd, List.filterMap_cons, Event.taken?]
      exact ih _ (hignores _) (htexts _) h
    · simp only [taken, run, events, h.registry_eq, hadd, List.filterMap_cons, Event.taken?]
      exact ih _ (hignores _) (htexts _) ⟨h.reporter, rfl, h.supertypes_eq⟩
  | extendsClass type name library next ih =>
    rw [run_extendsClass, run_extendsClass, taken, taken, events, events, ← h.supertypes_eq]
    have hafter : (few.afterQuestion type name library).Tightens start n m reports
        (many.afterQuestion type name library) := by
      refine ⟨h.reporter, h.registry_eq, ?_⟩
      simp only [Session.afterQuestion, h.supertypes_eq]
    exact ih _ (hignores _) (htexts _) hafter
  | locate node next ih => exact ih _ (hignores _) (htexts _) h

/-- Such a script runs alike in sessions that took the same reports, whichever they are. -/
lemma Script.runsAlike_tightens (hstarts : start.tree.lineStarts.size ≠ 0) (hle : NoHigher n m)
    (owner : String) (links : Links) {script : Script} (hignores : script.IgnoresAnswers)
    (htexts : script.ReportsOnly Report.HasTexts) :
    script.RunsAlike (fun few many => ∃ reports, few.Tightens start n m reports many) owner
      links := by
  rintro few many ⟨reports, h⟩
  obtain ⟨hended, -, hafter⟩ := script.run_tightens hstarts hle owner links hignores htexts h
  exact ⟨hended, _, hafter⟩

/-! ### The rules that register under both limits -/

namespace Session.Tightens

lemma declare (h : few.Tightens start n m reports many) (rule : String) (ids : List String) :
    (few.declare rule ids).Tightens start n m reports (many.declare rule ids) := by
  obtain ⟨⟨⟨made, hfew, hmade⟩, ⟨made', hmany, hmade'⟩, hstrict, hdeclared, hduplicates⟩, hregistry,
    hsupertypes⟩ := h
  refine ⟨⟨⟨made, hfew.declare rule ids, hmade⟩, ⟨made', hmany.declare rule ids, hmade'⟩, hstrict,
    ?_, hduplicates⟩, hregistry, hsupertypes⟩
  simp only [Session.declare, Reporter.declare, hdeclared]

lemma freeze (h : few.Tightens start n m reports many) :
    few.freeze.Tightens start n m reports many.freeze :=
  { h with registry_eq := by simp only [Session.registry_freeze, h.registry_eq] }

end Session.Tightens

namespace RuleSet

variable {context : Context} {links : Links} {rules : List Rule} {b b' : Building}

/-- The reports of a rule that registers in a session and that do not fail. -/
def takenBy (context : Context) (links : Links) (rule : Rule) (s : Session) : List Report :=
  match rule.card, rule.setup with
  | some card, some setup => (setup context).taken card.name links (declared rule s)
  | _, _ => []

/-- The reports of rules that register one after the other and that do not fail. -/
def takenByAll (context : Context) (links : Links) : List Rule → Building → List Report
  | [], _ => []
  | rule :: rest, b =>
    takenBy context links rule b.session ++
      takenByAll context links rest (enroll context links rule b).2

/-- Rules that register without a fault under both limits make the same reports under both. -/
lemma enrollAll_tightens (hstarts : start.tree.lineStarts.size ≠ 0) (hle : NoHigher n m)
    (hignores : ∀ rule ∈ rules, rule.IgnoresAnswers) (htexts : ∀ rule ∈ rules, rule.ReportsTexts)
    (hok : (enrollAll context links rules b).1 = .ok ())
    (hok' : (enrollAll context links rules b').1 = .ok ())
    (h : b.session.Tightens start n m reports b'.session) :
    takenByAll context links rules b = takenByAll context links rules b' ∧
      (enrollAll context links rules b).2.session.Tightens start n m
        (reports ++ takenByAll context links rules b)
        (enrollAll context links rules b').2.session := by
  induction rules generalizing b b' reports with
  | nil =>
    refine ⟨rfl, ?_⟩
    rw [takenByAll, List.append_nil]
    exact h
  | cons rule rest ih =>
    obtain ⟨hrule, hrest⟩ := List.forall_mem_cons.1 hignores
    obtain ⟨hruleTexts, hrestTexts⟩ := List.forall_mem_cons.1 htexts
    obtain ⟨hfirst, hothers⟩ := (enrollAll_cons_fst_eq_ok_iff rule rest).1 hok
    obtain ⟨hfirst', hothers'⟩ := (enrollAll_cons_fst_eq_ok_iff rule rest).1 hok'
    obtain ⟨card, setup, hcard, hsetup, -, hrun, -⟩ := enroll_of_ok hfirst
    obtain ⟨_, _, hcard', hsetup', -, hrun', -⟩ := enroll_of_ok hfirst'
    rw [hcard] at hcard'
    rw [hsetup] at hsetup'
    cases hcard'
    cases hsetup'
    obtain ⟨-, htaken, hafter⟩ := (setup context).run_tightens hstarts hle card.name links
      (hrule card setup hcard hsetup context).1 (hruleTexts card setup hcard hsetup context).1
      (h.declare (rule.name?.getD "") rule.kindIds)
    have hby : ∀ s, takenBy context links rule s =
        (setup context).taken card.name links (declared rule s) := fun s => by
      simp only [takenBy, hcard, hsetup]
    have hdeclared : ∀ s : Session,
        s.declare (rule.name?.getD "") rule.kindIds = declared rule s := fun _ => rfl
    rw [hdeclared, hdeclared, ← hby, ← hby] at htaken
    rw [hdeclared, hdeclared, ← hby, hrun, hrun'] at hafter
    obtain ⟨hmore, hend⟩ := ih hrest hrestTexts hothers hothers' hafter
    rw [takenByAll, takenByAll, htaken, hmore, enrollAll_cons_of_ok hfirst,
      enrollAll_cons_of_ok hfirst']
    rw [htaken, List.append_assoc, hmore] at hend
    exact ⟨rfl, hend⟩

end RuleSet

/-! ### One traversal under both limits -/

namespace Traversal

variable {context : Context} {links : Links} {strict : Bool} {t t' : Traversal}

/-- The reports made in some calls that do not fail. -/
def takenIn (context : Context) (links : Links) : List Call → Session → List Report
  | [], _ => []
  | c :: rest, s =>
    (c.script context links).taken c.owner links s ++
      takenIn context links rest ((c.script context links).run c.owner links s).2

/-- Calls that do not look at what becomes of their reports, and report only what can be told, make
the same reports under both limits. -/
theorem sessionAfter_tightens (hstarts : start.tree.lineStarts.size ≠ 0) (hle : NoHigher n m)
    (context : Context) (links : Links) (calls : List Call)
    (hcalls : ∀ c ∈ calls, (c.script context links).IgnoresAnswers ∧
      (c.script context links).ReportsOnly Report.HasTexts)
    (h : few.Tightens start n m reports many) :
    takenIn context links calls few = takenIn context links calls many ∧
      (sessionAfter context links calls few).Tightens start n m
        (reports ++ takenIn context links calls few) (sessionAfter context links calls many) := by
  induction calls generalizing few many reports with
  | nil =>
    refine ⟨rfl, ?_⟩
    rw [takenIn, List.append_nil]
    exact h
  | cons c rest ih =>
    obtain ⟨⟨hignores, htexts⟩, hrest⟩ := List.forall_mem_cons.1 hcalls
    obtain ⟨-, htaken, hafter⟩ :=
      Script.run_tightens hstarts hle c.owner links _ hignores htexts h
    obtain ⟨htaken', hafter'⟩ := ih hrest hafter
    rw [takenIn, takenIn, ← htaken, ← htaken', ← List.append_assoc]
    exact ⟨rfl, hafter'⟩

/-- Calls that do not end the traversal leave the session after all of them. -/
lemma session_of_performAll (calls : List Call)
    (h : performAll strict context links calls t = (none, t')) :
    t'.session = sessionAfter context links calls t.session := by
  induction calls generalizing t with
  | nil =>
    cases h
    rfl
  | cons c rest ih =>
    have hstep := session_invoke strict context links c t
    rw [performAll] at h
    rcases hinvoke : invoke strict context links c.node c.processor t with ⟨_ | f, between⟩ <;>
      rw [hinvoke] at h hstep
    · rw [sessionAfter, ← hstep]
      exact ih h
    · cases h

end Traversal

end

/-! ### The analysis of a file under both limits -/

/-- A configuration with a limit of findings, or without one. -/
def Config.withLimit (config : Config) (limit : Option Nat) : Config :=
  { config with maxFindings := limit }

namespace Analysis

/-- Comments neither add findings nor lose count of them. -/
lemma length_filterFindings (config : Config) (tree : Tree) (findings : List Finding) :
    (filterFindings config tree findings).findings.length +
      (filterFindings config tree findings).suppressed = findings.length := by
  obtain ⟨left, hleft⟩ := exists_filterFindings_eq config tree
  rw [(hleft findings).1, (hleft findings).2]
  exact (List.length_eq_length_filter_add left).symm

/-- Of the first findings comments leave the first ones, and take out no more than of all. -/
lemma isPrefix_filterFindings {findings findings' : List Finding}
    (hinitial : findings <+: findings') (config : Config) (tree : Tree) :
    (filterFindings config tree findings).findings <+:
        (filterFindings config tree findings').findings ∧
      (filterFindings config tree findings).suppressed ≤
        (filterFindings config tree findings').suppressed := by
  obtain ⟨left, hleft⟩ := exists_filterFindings_eq config tree
  rw [(hleft _).1, (hleft _).1, (hleft _).2, (hleft _).2]
  exact ⟨hinitial.filter left, (hinitial.filter _).length_le⟩

section

variable [Machine] {rules : List Rule} {config : Config} {tree : Tree} {links : Links}
  {memory : Supertypes} {n m : Option Nat}

/-- The reports on a file that do not fail, first those of the rules that register and then those of
the handlers. -/
def takenOn (rules : List Rule) (config : Config) (links : Links) (tree : Tree)
    (memory : Supertypes) : List Report :=
  RuleSet.takenByAll (contextFor config tree) links rules
      (RuleSet.opening rules (reporterFor config tree) memory) ++
    Traversal.takenIn (contextFor config tree) links (plan rules config links tree memory)
      (built rules config links tree memory)

/-- The keys of the reports on a file that do not fail. -/
def reportedKeys (rules : List Rule) (config : Config) (h : Hierarchy) (links : Links)
    (tree : Tree) : Finset FindingKey :=
  ((takenOn rules config links tree ⟨h, []⟩).map Report.key).toFinset

/-- The rules of a file start to register in sessions that differ in their limits only. -/
lemma opening_tightens (rules : List Rule) (config : Config) (tree : Tree) (memory : Supertypes)
    (n m : Option Nat) :
    (RuleSet.opening rules (reporterFor (config.withLimit n) tree) memory).session.Tightens
      (reporterFor config tree) n m []
      (RuleSet.opening rules (reporterFor (config.withLimit m) tree) memory).session := by
  have htook : ∀ limit, Reporter.Took (reporterFor config tree) limit []
      (reporterFor (config.withLimit limit) tree) := by
    intro limit
    have hnone : Reporter.upTo limit (Reporter.distinct []) = [] :=
      List.eq_nil_of_subset_nil (Reporter.upTo_subset _ _)
    exact ⟨[], ⟨rfl, rfl, rfl, hnone ▸ .nil, fun _ => Iff.rfl, rfl, rfl, rfl⟩, rfl⟩
  exact ⟨⟨htook n, htook m, rfl, rfl, Nat.le_refl 0⟩, rfl, rfl⟩

/-- Under both limits the analysis of a file fails with the same fault, or it has taken the same
reports and has noted the same. -/
lemma analyzeFile_tightens (config : Config) (links : Links) (tree : Tree) (memory : Supertypes)
    (hstarts : tree.lineStarts.size ≠ 0) (hignores : ∀ rule ∈ rules, rule.IgnoresAnswers)
    (htexts : ∀ rule ∈ rules, rule.ReportsTexts) (hle : NoHigher n m) :
    (∃ f, (analyzeFile rules (config.withLimit n) links tree memory).result = .error f ∧
      (analyzeFile rules (config.withLimit m) links tree memory).result = .error f) ∨
    ∃ t t', (analyzeFile rules (config.withLimit n) links tree memory).result = .ok
        (fileResult (config.withLimit n) tree t
          (filterFindings (config.withLimit n) tree t.session.reporter.findings),
            t.session.supertypes) ∧
      (analyzeFile rules (config.withLimit m) links tree memory).result = .ok
        (fileResult (config.withLimit m) tree t'
          (filterFindings (config.withLimit m) tree t'.session.reporter.findings),
            t'.session.supertypes) ∧
      t.failures = t'.failures ∧ t.calls = t'.calls ∧
      takenOn rules (config.withLimit n) links tree memory =
        takenOn rules (config.withLimit m) links tree memory ∧
      Reporter.Tightens (reporterFor config tree) n m
        (takenOn rules (config.withLimit n) links tree memory) t.session.reporter
        t'.session.reporter := by
  have hstart := opening_tightens rules config tree memory n m
  have hcalls : (building rules (config.withLimit n) links tree memory).1 = .ok () →
      ∀ c ∈ plan rules (config.withLimit n) links tree memory, ∀ context,
        (c.script context links).IgnoresAnswers ∧
          (c.script context links).ReportsOnly Report.HasTexts := fun hbuild c hc context =>
    ⟨handlers_of_mem_plan (Q := fun _ script => script.IgnoresAnswers)
        (fun rule hrule => (hignores rule hrule).mono fun _ _ h => h.2) hbuild c hc context,
      handlers_of_mem_plan (Q := fun _ script => script.ReportsOnly Report.HasTexts)
        (fun rule hrule => (htexts rule hrule).mono fun _ _ h => h.2) hbuild c hc context⟩
  have hcontext : contextFor (config.withLimit n) tree = contextFor (config.withLimit m) tree := rfl
  rcases analyzeFile_alike
      (R := fun few many => ∃ reports, few.Tightens (reporterFor config tree) n m reports many)
      hcontext rfl (fun _ _ ⟨_, hs⟩ => hs.registry_eq)
      (fun _ _ rule ids ⟨reports, hs⟩ => ⟨reports, hs.declare rule ids⟩)
      (fun _ _ ⟨reports, hs⟩ => ⟨reports, hs.freeze⟩)
      (fun rule hrule card setup hcard hsetup context =>
        Script.runsAlike_tightens hstarts hle _ links
          (hignores rule hrule card setup hcard hsetup context).1
          (htexts rule hrule card setup hcard hsetup context).1)
      (fun hbuild c hc => Script.runsAlike_tightens hstarts hle _ links
        (hcalls hbuild c hc _).1 (hcalls hbuild c hc _).2)
      ⟨[], hstart⟩ with hfault | ⟨t, t', hbuild, hbuild', ht, ht', halike⟩
  · exact .inl hfault
  -- both analyses have results, so it can be told which reports were taken on the way
  obtain ⟨henroll, hbuilt⟩ := built_eq hbuild
  obtain ⟨henroll', hbuilt'⟩ := built_eq hbuild'
  rw [← hcontext] at henroll' hbuilt'
  obtain ⟨htaken, hsessions⟩ := RuleSet.enrollAll_tightens hstarts hle hignores htexts henroll
    henroll' hstart
  have hopened := hsessions.freeze
  rw [List.nil_append] at hopened
  have hplan : plan rules (config.withLimit m) links tree memory =
      plan rules (config.withLimit n) links tree memory := by
    rw [plan, plan, hbuilt, hbuilt', hopened.registry_eq]
  obtain ⟨htakenIn, hclosed⟩ := Traversal.sessionAfter_tightens hstarts hle
    (contextFor (config.withLimit n) tree) links _ (fun c hc => hcalls hbuild c hc _) hopened
  have hsession := Traversal.session_of_performAll _ ht
  have hsession' := Traversal.session_of_performAll _ ht'
  rw [hplan] at hsession'
  refine .inr ⟨t, t', (analyzeFile_of_returned hbuild ht).1,
    (analyzeFile_of_returned hbuild' ht').1, halike.failures_eq, halike.calls_eq, ?_, ?_⟩
  · rw [takenOn, takenOn, hplan, hbuilt, hbuilt', ← hcontext]
    exact congrArg₂ (· ++ ·) htaken htakenIn
  · rw [hsession, hsession', takenOn, hbuilt, hbuilt']
    exact hclosed.reporter

/-- **A higher limit only appends.**  Let no rule look at what becomes of its reports, neither when
it registers nor in its handlers, let every argument of a report have a text, and take two limits of
which one allows no more than the other, on a file with line starts.  Under both the analysis fails
with the same fault, or it has results under both.  Then the findings under the lower limit are the
first of those under the higher one, the failures and the counted calls are the same, and no more
findings are suppressed and no more reports are duplicates.  Under each limit there are as many
findings, with the suppressed ones, as different keys are reported without a fault, but no more than
the limit; and under both the same keys are reported. -/
theorem analyzeTree_withLimit (rules : List Rule) (config : Config) (h : Hierarchy) (links : Links)
    (tree : Tree) (hstarts : tree.lineStarts.size ≠ 0)
    (hignores : ∀ r ∈ rules, r.IgnoresAnswers) (htexts : ∀ r ∈ rules, r.ReportsTexts)
    (n m : Option Nat) (hle : NoHigher n m) :
    (∃ fault,
      (analyzeTree rules (config.withLimit n) h links tree).result = .error fault ∧
      (analyzeTree rules (config.withLimit m) h links tree).result = .error fault) ∨
    ∃ few many : FileResult,
      (analyzeTree rules (config.withLimit n) h links tree).result = .ok few ∧
      (analyzeTree rules (config.withLimit m) h links tree).result = .ok many ∧
      few.findings <+: many.findings ∧
      few.failures = many.failures ∧ few.timing = many.timing ∧
      few.suppressed ≤ many.suppressed ∧ few.duplicates ≤ many.duplicates ∧
      reportedKeys rules (config.withLimit n) h links tree =
        reportedKeys rules (config.withLimit m) h links tree ∧
      (few.findings.length + few.suppressed =
        n.elim (reportedKeys rules (config.withLimit n) h links tree).card
          (min · (reportedKeys rules (config.withLimit n) h links tree).card)) ∧
      many.findings.length + many.suppressed =
        m.elim (reportedKeys rules (config.withLimit m) h links tree).card
          (min · (reportedKeys rules (config.withLimit m) h links tree).card) := by
  rcases hvalid : RuleSet.validate rules with fault | _
  · exact .inl ⟨fault, result_analyzeTree_of_refused hvalid, result_analyzeTree_of_refused hvalid⟩
  rw [result_analyzeTree hvalid, result_analyzeTree hvalid]
  rcases analyzeFile_tightens config links tree ⟨h, []⟩ hstarts hignores htexts hle with
    ⟨fault, hfault, hfault'⟩ | ⟨t, t', hfew, hmany, hfailures, hcalls, htaken, htightens⟩
  · rw [hfault, hfault']
    exact .inl ⟨fault, rfl, rfl⟩
  rw [hfew, hmany]
  have hinitial := Reporter.Makes.isPrefix (Reporter.isPrefix_upTo hle _)
    htightens.few_took.findings htightens.many_took.findings
  obtain ⟨hleft, hsuppressed⟩ := isPrefix_filterFindings hinitial config tree
  have hkeys : reportedKeys rules (config.withLimit n) h links tree =
      reportedKeys rules (config.withLimit m) h links tree := by
    rw [reportedKeys, reportedKeys, htaken]
  refine .inr ⟨_, _, rfl, rfl, hleft, hfailures, ?_, hsuppressed, htightens.duplicates_le, hkeys,
    ?_, ?_⟩
  · show (if config.collectTiming.isTruthy then _ else _) = (if _ then _ else _)
    rw [hcalls]
    rfl
  · exact (length_filterFindings _ _ _).trans htightens.few_took.length_findings
  · rw [← hkeys]
    exact (length_filterFindings _ _ _).trans htightens.many_took.length_findings

end

/-- A rule with one handler, which does not look at what becomes of its reports. -/
lemma ignoresAnswers_blockRule (name : String) {handler : Handler}
    (hhandler : ∀ context site, (handler context site).IgnoresAnswers) :
    (blockRule name handler).IgnoresAnswers := by
  intro card setup hcard hsetup context
  cases hcard
  cases hsetup
  refine ⟨Script.ignoresAnswers_addAll _, Script.addsOnly_addAll ?_⟩
  rw [List.forall_mem_singleton]
  intro handler' hhandler'
  cases hhandler'
  exact hhandler

/-- Reports a node twice, with different kinds. -/
def pairHandler : Handler := fun _ site =>
  .report ⟨"pair", site.node.span, plainKind "first", []⟩ fun _ =>
    .report ⟨"pair", site.node.span, plainKind "second", []⟩ fun _ => .done

/-- A rule that reports every block twice. -/
def pairRule : Rule := blockRule "pair" pairHandler

lemma ignoresAnswers_pairRule : pairRule.IgnoresAnswers :=
  ignoresAnswers_blockRule "pair" fun _ _ =>
    ⟨fun _ _ => rfl, fun _ => ⟨fun _ _ => rfl, fun _ => trivial⟩⟩

section

variable [Machine]

/-- A rule with one handler whose reports pass only arguments that have a text. -/
lemma reportsTexts_blockRule (name : String) {handler : Handler}
    (hhandler : ∀ context site, (handler context site).ReportsOnly Report.HasTexts) :
    (blockRule name handler).ReportsTexts := by
  intro card setup hcard hsetup context
  cases hcard
  cases hsetup
  refine ⟨Script.reportsOnly_addAll _ _, Script.addsOnly_addAll ?_⟩
  rw [List.forall_mem_singleton]
  intro handler' hhandler'
  cases hhandler'
  exact hhandler

/-- The reports that are taken on a file with one block are those of the handler. -/
lemma takenOn_blockRule (name : String) (handler : Handler) (config : Config) (links : Links)
    (memory : Supertypes) :
    takenOn [blockRule name handler] config links Traversal.blockFile memory =
      (handler (contextFor config Traversal.blockFile)
        (links.site Traversal.blockFile.root)).taken name links
          (built [blockRule name handler] config links Traversal.blockFile memory) := by
  obtain ⟨hplan, -⟩ := traversed_blockRule name handler config links memory rfl Nat.one_ne_zero
  have hsetup : RuleSet.takenByAll (contextFor config Traversal.blockFile) links
      [blockRule name handler] (RuleSet.opening [blockRule name handler]
        (reporterFor config Traversal.blockFile) memory) = [] := by
    rw [RuleSet.takenByAll, RuleSet.takenByAll, List.append_nil]
    exact Script.taken_eq_nil _ _ _ (Script.reportsOnly_addAll _ _) _
  rw [takenOn, hsetup, hplan, Traversal.takenIn, Traversal.takenIn, List.append_nil]
  rfl

/-- A lenient session takes both reports of a node. -/
lemma taken_pairHandler {s : Session} (hlenient : s.reporter.strict = false)
    (hstarts : s.reporter.tree.lineStarts.size ≠ 0) (context : Context) (site : Site) :
    (pairHandler context site).taken "pair" ∅ s =
      [⟨"pair", site.node.span, plainKind "first", []⟩,
        ⟨"pair", site.node.span, plainKind "second", []⟩] := by
  obtain ⟨a, ha⟩ := exists_answer_plainKind hstarts
    (Reporter.vocabularyFault?_of_lenient hlenient ⟨"pair", site.node.span, plainKind "first", []⟩)
  obtain ⟨htree, hstrict, -⟩ :=
    s.reporter.settings_report ⟨"pair", site.node.span, plainKind "first", []⟩
  obtain ⟨b, hb⟩ := exists_answer_plainKind (by rw [htree]; exact hstarts)
    (Reporter.vocabularyFault?_of_lenient (hstrict.trans hlenient)
      ⟨"pair", site.node.span, plainKind "second", []⟩)
  have hb' : ((s.afterReport ⟨"pair", site.node.span, plainKind "first", []⟩).reporter.report
      ⟨"pair", site.node.span, plainKind "second", []⟩).1 = .ok b := hb
  simp only [Script.taken, pairHandler, Script.events, ha, hb', List.filterMap_nil,
    List.filterMap_cons_some (Event.taken?_reported_ok _ _)]

/-- Two keys are reported on a file with one block. -/
lemma card_reportedKeys_pairRule (limit : Option Nat) :
    (reportedKeys [pairRule] (Config.default.withLimit limit) Hierarchy.standard ∅
      Traversal.blockFile).card = 2 := by
  obtain ⟨-, registry, hbuilt, -⟩ := building_blockRule "pair" pairHandler
    (Config.default.withLimit limit) ∅ Traversal.blockFile ⟨Hierarchy.standard, []⟩
  rw [reportedKeys, pairRule, takenOn_blockRule, hbuilt, taken_pairHandler]
  · decide
  · rfl
  · exact Nat.one_ne_zero

/-! ### Reports that cannot be told -/

/-- A kind whose message is its only argument. -/
def argumentKind : DiagnosticKind := ⟨"odd", "odd.argument", "\x7b0\x7d", "warn", none⟩

/-- Such a kind expects one argument, and an integer that is too long has no message. -/
lemma format_argumentKind :
    argumentKind.arity = .ok 1 ∧
      argumentKind.format [.int Value.leastLong] = .error (.text .longInteger) := by
  let gap : Template.Gap := ⟨['0'], []⟩
  have hcut : (⟨[], [gap]⟩ : Template.Cut).IsCutOf argumentKind.template.toList := by
    refine ⟨by decide, ?_, DiagnosticKind.not_hasPlaceholder_of_not_mem (by decide), ?_⟩
    · exact List.forall_mem_singleton.2 ⟨by decide, List.forall_mem_singleton.2 ⟨0, by decide⟩⟩
    · exact List.forall_mem_singleton.2 (DiagnosticKind.not_hasPlaceholder_of_not_mem (by decide))
  have hread : gap.numeral.length ≤ Value.digitLimit := by decide
  have huntold : gap.Fails [.int Value.leastLong] (.text .longInteger) := by
    refine .untold hread (v := .int Value.leastLong) rfl ?_
    simp only [Value.text, Value.quoted_int, Value.decimal_leastLong]
  refine ⟨?_, DiagnosticKind.format_eq_error hcut (List.nil_append _).symm
    (List.forall_mem_nil _) huntold⟩
  rw [DiagnosticKind.arity,
    DiagnosticKind.withPieces_of_isCutOf hcut (List.forall_mem_singleton.2 hread)]
  rfl

/-- Reports a node, and once more with an argument that has no text. -/
def untoldHandler : Handler := fun _ site =>
  .report ⟨"odd", site.node.span, plainKind "odd", []⟩ fun _ =>
    .reportOnce ⟨"odd", site.node.span, argumentKind, [.int Value.leastLong]⟩

/-- A rule that reports every block so. -/
def untoldRule : Rule := blockRule "odd" untoldHandler

/-- A lenient reporter drops a report with an argument that has no text if the limit is reached, and
fails otherwise. -/
lemma report_untold {r : Reporter} (hlenient : r.strict = false)
    (hstarts : r.tree.lineStarts.size ≠ 0) {report : Report} (hcode : report.code = argumentKind)
    (harguments : report.arguments = [.int Value.leastLong]) (hnew : report.key ∉ r.seen) :
    (r.report report).1 = if r.isFull then .ok none else .error (.text .longInteger) := by
  obtain ⟨harity, hformat⟩ := format_argumentKind
  obtain ⟨l, hl⟩ := Traversal.exists_location hstarts report.span.start
  have hrefusal : r.refusal? report = none := by
    simp only [Reporter.refusal?, hcode, harity, Reporter.countFault?, harguments,
      List.length_singleton, if_true, Reporter.vocabularyFault?_of_lenient hlenient]
  have hfinding : r.finding report = .error (.text .longInteger) := by
    rw [Reporter.finding, hl, hcode, harguments, hformat]
    rfl
  have hseen : r.seen.contains report.key = false := by simpa using hnew
  rw [Reporter.report, hrefusal]
  simp only [Reporter.record, hseen, hfinding, Bool.false_eq_true, if_false]
  split <;> rfl

/-- A fresh reporter takes the first report of the handler; the second one fails, unless there is no
room for it. -/
lemma run_untoldHandler {s : Session} (hlenient : s.reporter.strict = false)
    (hstarts : s.reporter.tree.lineStarts.size ≠ 0) (hseen : s.reporter.seen = [])
    (hopen : s.reporter.isFull = false) (owner : String) (links : Links) (context : Context)
    (site : Site) :
    ((untoldHandler context site).run owner links s).1 =
      if s.reporter.limit.any (· ≤ (s.reporter.findings.length + 1 : Int)) then none
      else some (.text .longInteger) := by
  obtain ⟨f, hmade, hfinding⟩ := exists_report_plainKind hstarts hseen hopen
    (Reporter.vocabularyFault?_of_lenient hlenient ⟨"odd", site.node.span, plainKind "odd", []⟩)
  have hkey : f.key = ⟨"odd", "odd", site.node.span⟩ := s.reporter.key_of_finding _ hfinding
  have hafter : (s.reporter.report ⟨"odd", site.node.span, plainKind "odd", []⟩).2 =
      s.reporter.withFinding f := by rw [hmade]
  have hnew : (⟨"odd", site.node.span, argumentKind, [.int Value.leastLong]⟩ : Report).key ∉
      (s.reporter.withFinding f).seen := by
    rw [Reporter.withFinding, hseen, hkey, List.mem_singleton]
    simp [Report.key, argumentKind]
  have hreport := report_untold (r := s.reporter.withFinding f) hlenient hstarts rfl rfl hnew
  have hfull : (s.reporter.withFinding f).isFull =
      s.reporter.limit.any (· ≤ (s.reporter.findings.length + 1 : Int)) := by
    simp only [Reporter.isFull, Reporter.withFinding, List.length_append, List.length_singleton]
    cases s.reporter.limit <;> simp
  rw [untoldHandler, Script.run_report, Script.reportOnce, Script.run_report, Session.afterReport,
    hafter, hreport, hfull]
  split <;> rfl

/-- Whether the rule fails on a file with one block depends on the limit. -/
lemma fault_untoldRule (limit : Option Nat) (hlimit : limit ≠ some 0) :
    (Traversal.recordOf (contextFor (Config.default.withLimit limit) Traversal.blockFile) ∅
      ⟨Traversal.blockFile.root, ⟨"odd", "odd", untoldHandler⟩⟩
      (built [untoldRule] (Config.default.withLimit limit) ∅ Traversal.blockFile
        ⟨Hierarchy.standard, []⟩)).fault =
      if limit = some 1 then none else some (.text .longInteger) := by
  obtain ⟨-, registry, hbuilt, -⟩ := building_blockRule "odd" untoldHandler
    (Config.default.withLimit limit) ∅ Traversal.blockFile ⟨Hierarchy.standard, []⟩
  rw [untoldRule, hbuilt]
  refine (run_untoldHandler ?_ ?_ ?_ ?_ "odd" ∅
    (contextFor (Config.default.withLimit limit) Traversal.blockFile) _).trans ?_
  · rfl
  · exact Nat.one_ne_zero
  · rfl
  · cases limit with
    | none => rfl
    | some n =>
      have hn : n ≠ 0 := fun h => hlimit (congrArg some h)
      simpa [Reporter.isFull, Reporter.declare, reporterFor, Config.withLimit] using hn
  · cases limit with
    | none => rfl
    | some n =>
      have hn : n ≠ 0 := fun h => hlimit (congrArg some h)
      have hroom : (n : Int) ≤ 1 ↔ n = 1 := by omega
      simp [Reporter.declare, reporterFor, Config.withLimit, hroom]

/-- The rule has a result for a file with one block, and fails there unless one finding is
allowed. -/
lemma exists_result_untoldRule (limit : Option Nat) (hlimit : limit ≠ some 0) :
    ∃ r, (analyzeTree [untoldRule] (Config.default.withLimit limit) Hierarchy.standard ∅
        Traversal.blockFile).result = .ok r ∧
      (r.failures = [] ↔ limit = some 1) := by
  have htold : Fault.untold? (.text .longInteger) = none := rfl
  have hlenient : (Config.default.withLimit limit).strict.isTruthy = false := rfl
  have hfault := fault_untoldRule limit hlimit
  rw [untoldRule] at hfault ⊢
  obtain ⟨r, hr⟩ := (exists_result_blockRule_iff "odd" untoldHandler
    (Config.default.withLimit limit) Hierarchy.standard ∅ rfl Nat.one_ne_zero).2 (by
      rw [hlenient, Record.ending?_lenient_eq_none_iff, hfault]
      intro f hf
      split at hf <;> cases hf
      exact htold)
  refine ⟨r, hr, ?_⟩
  rw [(result_blockRule hr).1, Option.toList_eq_nil_iff, Record.failure?, hfault]
  split_ifs with hone
  · simp [hone]
  · obtain ⟨error, herror⟩ := Fault.exists_recorded htold
    simp [hone, htold, herror]

omit [Machine] in
lemma ignoresAnswers_untoldRule : untoldRule.IgnoresAnswers :=
  ignoresAnswers_blockRule "odd" fun _ _ =>
    ⟨fun _ _ => rfl, fun _ => ⟨fun _ _ => rfl, fun answer => by cases answer <;> trivial⟩⟩

/-- The rule makes a report on a file with one block, but no finding. -/
lemma exists_reported_longRule :
    ∃ r, (analyzeTree [longRule] (Config.default.withLimit none) Hierarchy.standard ∅
        Traversal.blockFile).result = .ok r ∧ r.findings.length + r.suppressed = 0 ∧
      ∃ record ∈ Traversal.history
          (contextFor (Config.default.withLimit none) Traversal.blockFile) ∅
          (plan [longRule] (Config.default.withLimit none) ∅ Traversal.blockFile
            ⟨Hierarchy.standard, []⟩)
          (built [longRule] (Config.default.withLimit none) ∅ Traversal.blockFile
            ⟨Hierarchy.standard, []⟩),
        ∃ report answer, .reported report answer ∈ record.events := by
  obtain ⟨r, hr⟩ := exists_result_longRule (Config.default.withLimit none) rfl
  obtain ⟨hplan, -⟩ := traversed_blockRule "long" longHandler (Config.default.withLimit none) ∅
    ⟨Hierarchy.standard, []⟩ rfl Nat.one_ne_zero
  refine ⟨r, hr, ?_, ?_⟩
  · obtain ⟨-, hfindings, hsuppressed⟩ := result_blockRule hr
    rw [hfindings, hsuppressed, (recordOf_longHandler _ _ _).1]
    rfl
  · rw [longRule, hplan, Traversal.history, Traversal.history]
    refine ⟨_, List.mem_singleton_self _, ?_⟩
    rw [(recordOf_longHandler _ _ _).1]
    exact ⟨_, _, List.mem_cons_self⟩

/-! ### A rule that looks at what becomes of its report -/

/-- Reports, and fails if a finding was made. -/
def curiousScript : Script :=
  .report ⟨"curious", ⟨0, 2⟩, plainKind "curious", []⟩ fun answer =>
    match answer with
    | .ok none => .done
    | _ => .fail .overflow

omit [Machine] in
/-- The script adds no handler. -/
lemma addsOnly_curiousScript (adds : Registration → Prop) : curiousScript.AddsOnly adds := by
  rintro (f | _ | f) <;> trivial

/-- A rule that does so when it registers. -/
def curiousRule : Rule := scriptRule "curious" curiousScript

/-- The script fails unless there is no room for a finding. -/
lemma run_curiousScript {s : Session} (hlenient : s.reporter.strict = false)
    (hstarts : s.reporter.tree.lineStarts.size ≠ 0) (hseen : s.reporter.seen = []) :
    curiousScript.run "curious" ∅ s = (if s.reporter.isFull then none else some .overflow,
      s.afterReport ⟨"curious", ⟨0, 2⟩, plainKind "curious", []⟩) := by
  rw [curiousScript, Script.run_report]
  rcases report_plainKind_cases hstarts hseen (Reporter.vocabularyFault?_of_lenient hlenient
    ⟨"curious", ⟨0, 2⟩, plainKind "curious", []⟩) with ⟨hfull, heq⟩ | ⟨hopen, f, heq, -⟩
  · rw [heq, hfull]
    rfl
  · rw [heq, hopen]
    rfl

/-- There is a result of a file with one block exactly if no finding is allowed. -/
lemma exists_result_curiousRule_iff (limit : Option Nat) :
    (∃ r, (analyzeTree [curiousRule] (Config.default.withLimit limit) Hierarchy.standard ∅
        Traversal.blockFile).result = .ok r) ↔ limit = some 0 := by
  let s := RuleSet.declared curiousRule (RuleSet.opening [curiousRule] (reporterFor
    (Config.default.withLimit limit) Traversal.blockFile) ⟨Hierarchy.standard, []⟩).session
  have hrun := run_curiousScript (s := s) rfl Nat.one_ne_zero rfl
  have hfull : s.reporter.isFull = true ↔ limit = some 0 := by
    have hlimit : s.reporter.limit = limit.map Int.ofNat := by cases limit <;> rfl
    have hempty : s.reporter.findings = [] := rfl
    rw [Reporter.isFull, hlimit, hempty]
    cases limit <;> simp
  rw [← hfull]
  constructor
  · rintro ⟨r, hr⟩
    have hnone : (curiousScript.run "curious" ∅ s).1 = none := run_of_result_scriptRule hr
    rw [hrun] at hnone
    by_contra hopen
    rw [if_neg hopen] at hnone
    cases hnone
  · intro hfull
    rw [if_pos hfull] at hrun
    obtain ⟨-, -, r, hr, -⟩ := result_scriptRule hrun fun _ => rfl
    exact ⟨r, hr⟩

end

attribute [local instance] Machine.small

theorem analyzeTree_withLimit_pair :
    Traversal.blockFile.lineStarts.size ≠ 0 ∧ (∀ r ∈ [pairRule], r.IgnoresAnswers) ∧
      (∀ r ∈ [pairRule], r.ReportsTexts) ∧ NoHigher (some 1) none ∧
      ∃ few many : FileResult,
        (analyzeTree [pairRule] (Config.default.withLimit (some 1)) Hierarchy.standard ∅
          Traversal.blockFile).result = .ok few ∧
        (analyzeTree [pairRule] (Config.default.withLimit none) Hierarchy.standard ∅
          Traversal.blockFile).result = .ok many ∧
        few.findings <+: many.findings ∧ few.findings.length + few.suppressed = 1 ∧
        many.findings.length + many.suppressed = 2 := by
  have hstarts : Traversal.blockFile.lineStarts.size ≠ 0 := Nat.one_ne_zero
  have hignores : ∀ r ∈ [pairRule], r.IgnoresAnswers :=
    List.forall_mem_singleton.2 ignoresAnswers_pairRule
  have htexts : ∀ r ∈ [pairRule], r.ReportsTexts :=
    List.forall_mem_singleton.2 (reportsTexts_blockRule "pair" fun _ _ =>
      ⟨by simp [Report.HasTexts], fun _ => ⟨by simp [Report.HasTexts], fun _ => trivial⟩⟩)
  have hle : NoHigher (some 1) none := nofun
  refine ⟨hstarts, hignores, htexts, hle, ?_⟩
  rcases analyzeTree_withLimit [pairRule] Config.default Hierarchy.standard ∅ Traversal.blockFile
    hstarts hignores htexts (some 1) none hle with
    ⟨fault, -, hfault⟩ | ⟨few, many, hfew, hmany, hinitial, -, -, -, -, -, hcard, hcard'⟩
  · obtain ⟨r, hr⟩ := (exists_result_blockRule_iff "pair" pairHandler
      (Config.default.withLimit none) Hierarchy.standard ∅ rfl Nat.one_ne_zero).2 rfl
    rw [pairRule, hr] at hfault
    cases hfault
  · rw [card_reportedKeys_pairRule] at hcard hcard'
    exact ⟨few, many, hfew, hmany, hinitial, hcard, hcard'⟩

/-- An argument without a text makes a report fail under one limit and not under another; a report
that fails under every limit makes no finding; and a rule that registers only if no finding is made
has a result under one limit and not under another. -/
theorem not_forall_failures_withLimit :
    (¬∀ (rules : List Rule) (config : Config) (h : Hierarchy) (links : Links) (tree : Tree)
        (n m : Option Nat), tree.lineStarts.size ≠ 0 → (∀ r ∈ rules, r.IgnoresAnswers) →
        NoHigher n m → ∀ few many : FileResult,
          (analyzeTree rules (config.withLimit n) h links tree).result = .ok few →
          (analyzeTree rules (config.withLimit m) h links tree).result = .ok many →
          few.failures = many.failures) ∧
    (¬∀ (rules : List Rule) (config : Config) (h : Hierarchy) (links : Links) (tree : Tree),
        tree.lineStarts.size ≠ 0 → (∀ r ∈ rules, r.IgnoresAnswers) → ∀ many : FileResult,
          (analyzeTree rules (config.withLimit none) h links tree).result = .ok many →
          ∀ r ∈ Traversal.history (contextFor (config.withLimit none) tree) links
              (plan rules (config.withLimit none) links tree ⟨h, []⟩)
              (built rules (config.withLimit none) links tree ⟨h, []⟩),
            ∀ report answer, .reported report answer ∈ r.events →
              many.findings.length + many.suppressed ≠ 0) ∧
    ¬∀ (rules : List Rule) (config : Config) (h : Hierarchy) (links : Links) (tree : Tree)
        (n m : Option Nat), tree.lineStarts.size ≠ 0 →
        (∀ r ∈ rules, r.SetsUp fun _ script => script.AddsOnly fun reg =>
          ∀ handler, reg.handler = some handler →
            ∀ context site, (handler context site).IgnoresAnswers) →
        (∀ r ∈ rules, r.ReportsTexts) → NoHigher n m →
          (∃ few, (analyzeTree rules (config.withLimit n) h links tree).result = .ok few) →
          ∃ many, (analyzeTree rules (config.withLimit m) h links tree).result = .ok many := by
  refine ⟨fun hall => ?_, fun hall => ?_, fun hall => ?_⟩
  · obtain ⟨few, hfew, hnone⟩ := exists_result_untoldRule (some 1) (by decide)
    obtain ⟨many, hmany, hsome⟩ := exists_result_untoldRule none (by decide)
    have hle : NoHigher (some 1) none := nofun
    have hsame := hall [untoldRule] Config.default Hierarchy.standard ∅ Traversal.blockFile (some 1)
      none Nat.one_ne_zero (List.forall_mem_singleton.2 ignoresAnswers_untoldRule) hle few many hfew
      hmany
    rw [hnone.2 rfl] at hsame
    cases hsome.1 hsame.symm
  · obtain ⟨r, hr, hempty, record, hmem, report, answer, hreported⟩ := exists_reported_longRule
    have hignores : longRule.IgnoresAnswers := ignoresAnswers_blockRule "long" fun _ _ =>
      ⟨fun _ _ => rfl, fun answer => by cases answer <;> trivial⟩
    exact hall [longRule] Config.default Hierarchy.standard ∅ Traversal.blockFile Nat.one_ne_zero
      (List.forall_mem_singleton.2 hignores) r hr record hmem report answer hreported hempty
  · have hhandlers : curiousRule.SetsUp fun _ script => script.AddsOnly fun reg =>
        ∀ handler, reg.handler = some handler →
          ∀ context site, (handler context site).IgnoresAnswers := by
      intro card setup hcard hsetup context
      cases hsetup
      exact addsOnly_curiousScript _
    have htexts : curiousRule.ReportsTexts := by
      intro card setup hcard hsetup context
      cases hsetup
      refine ⟨⟨List.forall_mem_nil _, fun answer => ?_⟩, addsOnly_curiousScript _⟩
      rcases answer with f | _ | f <;> trivial
    have hle : NoHigher (some 0) none := nofun
    have hresult := hall [curiousRule] Config.default Hierarchy.standard ∅ Traversal.blockFile
      (some 0) none Nat.one_ne_zero (List.forall_mem_singleton.2 hhandlers)
      (List.forall_mem_singleton.2 htexts) hle ((exists_result_curiousRule_iff _).2 rfl)
    cases (exists_result_curiousRule_iff none).1 hresult

end Analysis

end TreeLint
