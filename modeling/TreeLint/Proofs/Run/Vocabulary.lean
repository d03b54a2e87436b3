/-
The vocabulary of an analysis in strict mode.

A strict reporter looks at every report before it makes a finding: at the number of
arguments, and at the kind, if the report is made under the name of a rule that has
declared its kinds.  Once a rule has declared them, every report under its name is looked
at so, whoever makes it (`Session.Vouches`).  All rules of an accepted list have done so
when the calls on a file start; the rules register one after the other, and a rule that
registers may report under the name of one that comes after it.  So the findings of all
files are in the vocabulary of their rules, but for such early ones:
`Analysis.analyzeTrees_declared`.

Nothing is declared under a name that is no rule's, and a report under such a name is
not looked at in this way: `Analysis.not_forall_findings_declared`.
-/
import TreeLint.Proofs.Run.Isolation
import TreeLint.Proofs.Run.Strictness
namespace TreeLint

/-! ### One report -/

namespace Reporter

variable {r : Reporter} {report : Report}

lemma arity_eq_of_refusal?_eq_none (hstrict : r.strict = true) (h : r.refusal? report = none) :
    report.code.arity = .ok report.arguments.length := by
  unfold refusal? at h
  rcases harity : report.code.arity with f | arity <;> simp only [harity] at h
  · cases h
  · by_cases hcount : report.arguments.length = arity
    · rw [hcount]
    -- a wrong number is refused, with one fault or another
    · have hsome : r.countFault? report arity ≠ none := by
        unfold countFault?
        rw [if_neg hcount, hstrict]
        cases Value.decimal arity <;> simp
      rcases hfault : r.countFault? report arity with _ | f
      · exact absurd hfault hsome
      · rw [hfault] at h
        cases h

/-- A report under a name for which kinds are declared is refused by a strict reporter unless its
kind is one of them. -/
lemma mem_of_refusal?_eq_none (hstrict : r.strict = true) {ids : List String}
    (hlookup : r.declared.lookup report.rule = some ids) (h : r.refusal? report = none) :
    report.code.id ∈ ids := by
  have hvocabulary : r.vocabularyFault? report = none := by
    unfold refusal? at h
    rcases harity : report.code.arity with f | arity <;> simp only [harity] at h
    · cases h
    · rcases hfault : r.countFault? report arity with _ | f <;> rw [hfault] at h
      · exact h
      · cases h
  by_contra hnot
  simp [vocabularyFault?, hstrict, hlookup, hnot] at hvocabulary

variable [Machine]

/-- A report that makes a finding was not refused, and the finding has its name, its kind and its
arguments. -/
lemma eq_of_finding {f : Finding} (h : (r.report report).1 = .ok (some f)) :
    r.refusal? report = none ∧ f.rule = report.rule ∧ f.code = report.code ∧
      f.arguments = report.arguments := by
  constructor
  · rw [Reporter.report] at h
    rcases hrefusal : r.refusal? report with _ | g
    · rfl
    · rw [hrefusal] at h
      cases h
  · rcases r.report_cases report with
      ⟨g, heq⟩ | ⟨-, heq⟩ | ⟨-, -, heq⟩ | ⟨-, -, finding, hfinding, heq⟩ <;>
      rw [heq] at h <;> cases h
    obtain ⟨location, message, -, -, rfl⟩ := (r.finding_eq_ok_iff report).1 hfinding
    exact ⟨rfl, rfl, rfl⟩

/-- What holds of the findings of a reporter, and of what it makes of a report, holds of its
findings after the report. -/
lemma forall_findings_report {P : Finding → Prop} (hold : ∀ f ∈ r.findings, P f)
    (hnew : ∀ f, (r.report report).1 = .ok (some f) → P f) :
    ∀ f ∈ (r.report report).2.findings, P f := by
  intro f hf
  rw [r.findings_report report, List.mem_append] at hf
  rcases hf with hmem | hmade
  · exact hold f hmem
  · rcases hanswer : (r.report report).1 with g | _ | made <;>
      simp [hanswer, Event.finding?] at hmade
    subst hmade
    exact hnew _ hanswer

end Reporter

/-! ### One session -/

section

/-- A session in strict mode whose findings have as many arguments as their templates expect. -/
structure Session.Counts (s : Session) : Prop where
  strict : s.reporter.strict = true
  arity_eq : ∀ f ∈ s.reporter.findings, f.code.arity = .ok f.arguments.length

/-- A session in strict mode in which some kinds are declared under a name, and which holds only
findings of these kinds under this name, but for some that it held before. -/
structure Session.Vouches (name : String) (ids : List String) (early : List Finding) (s : Session) :
    Prop where
  strict : s.reporter.strict = true
  lookup_eq : s.reporter.declared.lookup name = some ids
  mem_ids : ∀ f ∈ s.reporter.findings, f.rule = name → f.code.id ∈ ids ∨ f ∈ early

/-- What is declared under another name makes no difference. -/
lemma Session.Vouches.declare {name other : String} {ids ids' : List String} {early : List Finding}
    {s : Session} (h : s.Vouches name ids early) (hne : other ≠ name) :
    (s.declare other ids').Vouches name ids early := by
  have hbeq : (name == other) = false := by simpa using hne.symm
  refine ⟨h.strict, ?_, h.mem_ids⟩
  simp only [Session.declare, Reporter.declare, List.lookup_cons, hbeq]
  exact h.lookup_eq

variable [Machine]

lemma Session.counts_invariant :
    Session.Invariant (fun _ => True) (fun _ => True) Session.Counts where
  report := by
    intro s r hs _
    obtain ⟨-, hstrict, -⟩ := s.reporter.settings_report r
    refine ⟨hstrict.trans hs.strict, Reporter.forall_findings_report hs.arity_eq fun f hf => ?_⟩
    obtain ⟨hrefusal, -, hcode, harguments⟩ := Reporter.eq_of_finding hf
    rw [hcode, harguments]
    exact Reporter.arity_eq_of_refusal?_eq_none hs.strict hrefusal
  add hs _ _ := ⟨hs.strict, hs.arity_eq⟩
  question hs := ⟨hs.strict, hs.arity_eq⟩

lemma Session.vouches_invariant (name : String) (ids : List String) (early : List Finding) :
    Session.Invariant (fun _ => True) (fun _ => True) (Session.Vouches name ids early) where
  report := by
    intro s r hs _
    obtain ⟨-, hstrict, -, -, hdeclared⟩ := s.reporter.settings_report r
    refine ⟨hstrict.trans hs.strict, ?_, Reporter.forall_findings_report hs.mem_ids fun f hf => ?_⟩
    · rw [afterReport, hdeclared]
      exact hs.lookup_eq
    · obtain ⟨hrefusal, hrule, hcode, -⟩ := Reporter.eq_of_finding hf
      intro hname
      rw [hrule] at hname
      rw [hcode]
      exact .inl (Reporter.mem_of_refusal?_eq_none hs.strict (hname ▸ hs.lookup_eq) hrefusal)
  add hs _ _ := ⟨hs.strict, hs.lookup_eq, hs.mem_ids⟩
  question hs := ⟨hs.strict, hs.lookup_eq, hs.mem_ids⟩

end

/-- The rules that stand behind a rule in a sound list have other names. -/
lemma RuleSet.Sound.name_ne_of_append [Machine] {before after : List Rule} {r : Rule}
    (hsound : RuleSet.Sound (before ++ r :: after)) {name : String} (hname : r.name? = some name) :
    ∀ rule ∈ after, rule.name?.getD "" ≠ name := by
  intro rule hrule heq
  obtain ⟨other, hother⟩ := hsound.exists_name
    (List.mem_append_right before (List.mem_cons_of_mem r hrule))
  have hnodup := hsound.names
  rw [hother, Option.getD_some] at heq
  rw [List.filterMap_append, List.filterMap_cons_some hname, List.nodup_append] at hnodup
  exact (List.nodup_cons.1 hnodup.2.1).1 (List.mem_filterMap.2 ⟨rule, hrule, heq ▸ hother⟩)

/-! ### Several files -/

namespace Analysis

variable [Machine] {rules : List Rule} {config : Config} {h : Hierarchy} {links : Links}
  {tree : Tree} {m : Supertypes}

/-- The findings made on a file while the first rules of a list register. -/
def foundBy (before rules : List Rule) (config : Config) (h : Hierarchy) (links : Links)
    (tree : Tree) : List Finding :=
  (RuleSet.enrollAll (contextFor config tree) links before
    (RuleSet.opening rules (reporterFor config tree) ⟨h, []⟩)).2.session.reporter.findings

/-- The findings of a file have as many arguments as their templates expect. -/
lemma counts_traversed (hstrict : config.strict.isTruthy = true)
    (hbuild : (building rules config links tree m).1 = .ok ()) :
    (traversed rules config links tree m).2.session.Counts := by
  refine preserves_traversed_of_opening Session.counts_invariant
    (fun _ _ _ hs => ⟨hs.strict, hs.arity_eq⟩) (fun _ hs => ⟨hs.strict, hs.arity_eq⟩)
    ⟨hstrict, fun f hf => ?_⟩ hbuild
  cases hf

/-- Rules that register leave a strict reporter strict. -/
lemma strict_enrollAll {context : Context} {b : RuleSet.Building}
    (hstrict : b.session.reporter.strict = true)
    (hok : (RuleSet.enrollAll context links rules b).1 = .ok ()) :
    (RuleSet.enrollAll context links rules b).2.session.reporter.strict = true :=
  RuleSet.enrollAll_preserves (P := fun s => s.reporter.strict = true) (fun _ _ _ hs => hs)
    (fun _ _ card setup _ _ s hs =>
      ((RuleSet.run_preserves_of_forall (RuleSet.resembles_invariant s.reporter) card.name links
        (setup _) ⟨rfl, rfl, rfl, rfl⟩).strict_eq).trans hs) hstrict hok

/-- When it is the turn of a rule, it declares its kinds before it registers. -/
lemma vouches_enroll {context : Context} {b : RuleSet.Building}
    (hstrict : b.session.reporter.strict = true) {r : Rule} {name : String}
    (hname : r.name? = some name) (hok : (RuleSet.enroll context links r b).1 = .ok ()) :
    (RuleSet.enroll context links r b).2.session.Vouches name r.kindIds
      b.session.reporter.findings := by
  obtain ⟨card, setup, -, -, -, hrun, -⟩ := RuleSet.enroll_of_ok hok
  have hdeclared : (RuleSet.declared r b.session).Vouches name r.kindIds
      b.session.reporter.findings := by
    refine ⟨hstrict, ?_, fun f hf _ => .inr hf⟩
    simp only [RuleSet.declared, Session.declare, Reporter.declare, hname, Option.getD_some,
      List.lookup_cons_self]
  have hregistered := RuleSet.run_preserves_of_forall (Session.vouches_invariant _ _ _) card.name
    links (setup context) hdeclared
  rwa [hrun] at hregistered

/-- The findings of a file under the name of a rule are of the kinds that it declares, but for those
made before it was its turn to register. -/
lemma vouches_traversed (hsound : RuleSet.Sound rules) (hstrict : config.strict.isTruthy = true)
    (hbuild : (building rules config links tree ⟨h, []⟩).1 = .ok ()) {before after : List Rule}
    {r : Rule} (hrules : rules = before ++ r :: after) {name : String}
    (hname : r.name? = some name) :
    (traversed rules config links tree ⟨h, []⟩).2.session.Vouches name r.kindIds
      (foundBy before rules config h links tree) := by
  refine preserves_traversed (Session.vouches_invariant _ _ _) ?_
  obtain ⟨henroll, hbuilt⟩ := built_eq hbuild
  subst hrules
  obtain ⟨hbefore, hthen⟩ := (RuleSet.enrollAll_append_fst_eq_ok_iff before (r :: after)).1 henroll
  obtain ⟨hown, hafter⟩ := (RuleSet.enrollAll_cons_fst_eq_ok_iff r after).1 hthen
  have hregistered := vouches_enroll (strict_enrollAll hstrict hbefore) hname hown
  have hlast := RuleSet.enrollAll_preserves (P := Session.Vouches name r.kindIds
      (foundBy before (before ++ r :: after) config h links tree))
    (fun rule hrule s hs => hs.declare (hsound.name_ne_of_append hname rule hrule))
    (fun _ _ _ _ _ _ _ hs => RuleSet.run_preserves_of_forall
      (Session.vouches_invariant _ _ _) _ links _ hs) hregistered hafter
  rw [hbuilt, RuleSet.enrollAll_append_of_ok before (r :: after) hbefore,
    RuleSet.enrollAll_cons_of_ok hown]
  exact ⟨hlast.strict, hlast.lookup_eq, hlast.mem_ids⟩

/-- **The vocabulary of strict mode.**  Whatever the rules report when they register, and whatever
their handlers report, under whatever names: when the analysis of files in strict mode has results,
each result is that of one of the files, and every finding in it has exactly as many arguments as
its template expects.  A finding under the name of one of the rules has a kind that this rule
declares, unless it was made on this file while a rule before it in the list registered. -/
theorem analyzeTrees_declared (rules : List Rule) (config : Config) (h : Hierarchy) (links : Links)
    (trees : List Tree) (hstrict : config.strict.isTruthy = true) (results : List FileResult)
    (hresults : (analyzeTrees rules config h links trees).result = .ok results) :
    ∀ result ∈ results, ∃ tree ∈ trees,
      (analyzeTree rules config h links tree).result = .ok result ∧
      ∀ f ∈ result.findings, f.code.arity = .ok f.arguments.length ∧
        ∀ before r after, rules = before ++ r :: after → r.name? = some f.rule →
          f.code.id ∈ r.kindIds ∨ f ∈ foundBy before rules config h links tree := by
  intro result hmem
  obtain ⟨tree, htree, t, hvalid, hbuild, hrun, rfl⟩ :=
    exists_traversal_of_mem_results hresults hmem
  refine ⟨tree, htree, result_analyzeTree_of_returned hvalid hbuild hrun, fun f hf => ?_⟩
  replace hf := mem_findings_of_mem_filterFindings hf
  constructor
  · have hcounts := counts_traversed hstrict hbuild
    rw [hrun] at hcounts
    exact hcounts.arity_eq f hf
  · intro before r after hrules hname
    have hvouches := vouches_traversed ((RuleSet.validate_eq_ok_iff rules).1 hvalid) hstrict hbuild
      hrules hname
    rw [hrun] at hvouches
    exact hvouches.mem_ids f hf rfl

end Analysis

namespace Analysis

/-- Reports a node under some name. -/
def reportingHandler (name reported : String) : Handler := fun _ site =>
  .reportOnce ⟨reported, site.node.span, plainKind name, []⟩

/-- A rule that reports every block, with its own kind, under some name. -/
def reportingRule (name reported : String) : Rule :=
  blockRule name (reportingHandler name reported)

/-- A rule that registers nothing, but reports its own kind under the name of another rule. -/
def hastyRule (name other : String) : Rule :=
  scriptRule name (.reportOnce ⟨other, ⟨0, 2⟩, plainKind name, []⟩)

section

variable [Machine] {h : Hierarchy}

/-- With room for one, a report that is not refused makes a finding if its key is new. -/
lemma exists_finding_plainKind {r : Reporter} (hstarts : r.tree.lineStarts.size ≠ 0)
    (hseen : r.seen = []) (hopen : r.isFull = false) {rule kind : String} {span : Span}
    (hdeclared : r.vocabularyFault? ⟨rule, span, plainKind kind, []⟩ = none) :
    ∃ f, (r.report ⟨rule, span, plainKind kind, []⟩).1 = .ok (some f) ∧ f.rule = rule ∧
      f.code = plainKind kind := by
  obtain ⟨f, heq, -⟩ := exists_report_plainKind hstarts hseen hopen hdeclared
  have hmade : (r.report ⟨rule, span, plainKind kind, []⟩).1 = .ok (some f) := by rw [heq]
  obtain ⟨-, hrule, hcode, -⟩ := Reporter.eq_of_finding hmade
  exact ⟨f, hmade, hrule, hcode⟩

omit [Machine] in
/-- A rule that has declared only its own kind may report it under any name. -/
lemma vocabularyFault?_own {r : Reporter} {name : String}
    (hdeclared : r.declared = [(name, [name])]) (reported : String) (span : Span) :
    r.vocabularyFault? ⟨reported, span, plainKind name, []⟩ = none := by
  unfold Reporter.vocabularyFault?
  rw [hdeclared]
  rcases eq_or_ne reported name with rfl | hne
  · simp [plainKind]
  · have hbeq : (reported == name) = false := by simpa using hne
    simp [List.lookup_cons, hbeq]

/-- In strict mode the reporting rule makes a finding for a block, under any name. -/
lemma exists_finding_reportingRule (name reported : String) :
    ∃ r f, (analyzeTree [reportingRule name reported] (Config.default.withStrict true)
        Hierarchy.standard ∅ Traversal.blockFile).result = .ok r ∧
      f ∈ r.findings ∧ f.rule = reported ∧ f.code = plainKind name := by
  obtain ⟨-, registry, hbuilt, -⟩ := building_blockRule name (reportingHandler name reported)
    (Config.default.withStrict true) ∅ Traversal.blockFile ⟨Hierarchy.standard, []⟩
  have hreporter : (built [reportingRule name reported] (Config.default.withStrict true) ∅
      Traversal.blockFile ⟨Hierarchy.standard, []⟩).reporter =
        (reporterFor (Config.default.withStrict true) Traversal.blockFile).declare name [name] := by
    rw [reportingRule, hbuilt]
  obtain ⟨f, hf, hrule, hcode⟩ := exists_finding_plainKind
    (r := (built [reportingRule name reported] (Config.default.withStrict true) ∅
      Traversal.blockFile ⟨Hierarchy.standard, []⟩).reporter)
    (by rw [hreporter]; exact Nat.one_ne_zero) (by rw [hreporter]; rfl) (by rw [hreporter]; rfl)
    (vocabularyFault?_own (by rw [hreporter]; rfl) reported ⟨0, 2⟩)
  obtain ⟨hevents, hrun⟩ := Script.reportOnce_of_ok name ∅ hf
  obtain ⟨r, hr, -, hfindings⟩ :=
    exists_result_of_run name (reportingHandler name reported) rfl hrun
  replace hfindings := hfindings.trans (congrArg (List.filterMap Event.finding?) hevents)
  refine ⟨r, f, hr, ?_, hrule, hcode⟩
  rw [hfindings]
  exact List.mem_singleton_self f

/-- When a rule registers without a handler, and one after it does nothing, the findings of a file
are those that the first makes. -/
lemma exists_result_scriptRules {name other : String} (hne : name ≠ other) {script : Script}
    {config : Config} {links : Links} {tree : Tree} {after : Session}
    (hrun : script.run name links (RuleSet.declared (scriptRule name script)
      (RuleSet.opening [scriptRule name script, scriptRule other .done] (reporterFor config tree)
        ⟨h, []⟩).session) = (none, after))
    (hnone : ∀ kind, after.registry.processorsFor kind = []) :
    ∃ r, (analyzeTree [scriptRule name script, scriptRule other .done] config h links tree).result =
        .ok r ∧ r.findings = (filterFindings config tree after.reporter.findings).findings := by
  have hnodup : [name, other].Nodup := by simpa using hne
  have hsound : RuleSet.Sound [scriptRule name script, scriptRule other .done] := by
    refine ⟨?_, hnodup, hnodup⟩
    rw [List.forall_mem_cons, List.forall_mem_singleton]
    exact ⟨isSound_scriptRule _ _, isSound_scriptRule _ _⟩
  obtain ⟨hfirst, hsession⟩ := enroll_scriptRule (contextFor config tree) hrun
  have hdone : Script.done.run other links (RuleSet.declared (scriptRule other .done)
      (RuleSet.enroll (contextFor config tree) links (scriptRule name script) (RuleSet.opening
        [scriptRule name script, scriptRule other .done] (reporterFor config tree)
          ⟨h, []⟩)).2.session) = (none, after.declare other [other]) := by
    rw [hsession]
    rfl
  obtain ⟨hsecond, hlast⟩ := enroll_scriptRule (contextFor config tree) hdone
  have henroll : (RuleSet.enrollAll (contextFor config tree) links
      [scriptRule name script, scriptRule other .done] (RuleSet.opening
        [scriptRule name script, scriptRule other .done] (reporterFor config tree)
          ⟨h, []⟩)).1 = .ok () := by
    rw [RuleSet.enrollAll_cons_of_ok hfirst, RuleSet.enrollAll_singleton]
    exact hsecond
  have hbuild : (building [scriptRule name script, scriptRule other .done] config links tree
      ⟨h, []⟩).1 = .ok () := RuleSet.buildRegistry_of_ok.1.2 henroll
  have hbuilt : built [scriptRule name script, scriptRule other .done] config links tree ⟨h, []⟩ =
      (after.declare other [other]).freeze := by
    rw [(built_eq hbuild).2, RuleSet.enrollAll_cons_of_ok hfirst, RuleSet.enrollAll_singleton,
      hlast]
  have hplan : plan [scriptRule name script, scriptRule other .done] config links tree ⟨h, []⟩ =
      [] := by
    rw [plan, hbuilt, Traversal.agenda]
    simp [hnone]
  have htraversed : traversed [scriptRule name script, scriptRule other .done] config links tree
      ⟨h, []⟩ = (none, { session := (after.declare other [other]).freeze }) := by
    rw [traversed, hplan, hbuilt, Traversal.performAll]
  exact ⟨_, result_analyzeTree_of_returned ((RuleSet.validate_eq_ok_iff _).2 hsound) hbuild
    htraversed, rfl⟩

/-- A rule that registers first makes a finding under the name of one that registers after it. -/
lemma exists_finding_hastyRule :
    ∃ r f, (analyzeTree [hastyRule "hasty" "calm", scriptRule "calm" .done]
        (Config.default.withStrict true) Hierarchy.standard ∅ Traversal.blockFile).result = .ok r ∧
      f ∈ r.findings ∧ f.rule = "calm" ∧ f.code = plainKind "hasty" := by
  let start := RuleSet.opening [hastyRule "hasty" "calm", scriptRule "calm" .done]
    (reporterFor (Config.default.withStrict true) Traversal.blockFile) ⟨Hierarchy.standard, []⟩
  -- only the first rule has declared its kind when it reports
  have hdeclared : (RuleSet.declared (hastyRule "hasty" "calm") start.session).reporter.declared =
      [("hasty", ["hasty"])] := rfl
  obtain ⟨f, hf, hrule, hcode⟩ := exists_finding_plainKind
    (r := (RuleSet.declared (hastyRule "hasty" "calm") start.session).reporter)
    Nat.one_ne_zero rfl rfl (vocabularyFault?_own hdeclared "calm" ⟨0, 2⟩)
  obtain ⟨-, hrun⟩ := Script.reportOnce_of_ok "hasty" ∅ hf
  have hne : "hasty" ≠ "calm" := by decide
  obtain ⟨r, hr, hfindings⟩ := exists_result_scriptRules hne hrun fun _ => rfl
  refine ⟨r, f, hr, ?_, hrule, hcode⟩
  rw [hfindings]
  show f ∈ ((RuleSet.declared _ start.session).reporter.report _).2.findings
  rw [Reporter.findings_report, hf]
  exact List.mem_append_right _ (List.mem_singleton_self f)

end

attribute [local instance] Machine.small

theorem analyzeTrees_declared_calm :
    (Config.default.withStrict true).strict.isTruthy = true ∧
    ∃ results, (analyzeTrees [reportingRule "calm" "calm"] (Config.default.withStrict true)
        Hierarchy.standard ∅ [Traversal.blockFile]).result = .ok results ∧
      ∃ result ∈ results, ∃ f ∈ result.findings, f.rule = "calm" ∧
        f.code.arity = .ok f.arguments.length ∧
        f.code.id ∈ (reportingRule "calm" "calm").kindIds := by
  have hstrict : (Config.default.withStrict true).strict.isTruthy = true := rfl
  obtain ⟨r, f, hr, hf, hrule, -⟩ := exists_finding_reportingRule "calm" "calm"
  have hresults := result_analyzeTrees_singleton hr
  obtain ⟨tree, -, -, hfindings⟩ := analyzeTrees_declared [reportingRule "calm" "calm"] _ _ _ _
    hstrict [r] hresults r (List.mem_singleton_self r)
  obtain ⟨harity, hdeclared⟩ := hfindings f hf
  have hname : (reportingRule "calm" "calm").name? = some f.rule := by
    rw [hrule]
    rfl
  refine ⟨hstrict, [r], hresults, r, List.mem_singleton_self r, f, hf, hrule, harity, ?_⟩
  -- no rule is before the first one, so there are no findings when it registers
  exact (hdeclared [] _ [] rfl hname).resolve_right List.not_mem_nil

/-- Strict mode does not keep reports to the kinds that the rules declare: a handler may report
under a name for which nothing is declared, and a rule that registers may report under the name of
one that registers after it. -/
theorem not_forall_findings_declared :
    (¬∀ rules config h links trees results, config.strict.isTruthy = true →
      (analyzeTrees rules config h links trees).result = .ok results →
      ∀ result ∈ results, ∀ f ∈ result.findings, ∃ r ∈ rules, r.name? = some f.rule) ∧
    ¬∀ rules config h links trees results, config.strict.isTruthy = true →
      (analyzeTrees rules config h links trees).result = .ok results →
      ∀ result ∈ results, ∀ f ∈ result.findings,
        ∀ r ∈ rules, r.name? = some f.rule → f.code.id ∈ r.kindIds := by
  constructor
  · intro hall
    obtain ⟨r, f, hr, hf, hrule, -⟩ := exists_finding_reportingRule "calm" "ghost"
    obtain ⟨rule, hmem, hname⟩ := hall _ _ _ _ _ [r] rfl (result_analyzeTrees_singleton hr) r
      (List.mem_singleton_self r) f hf
    rw [List.mem_singleton.1 hmem, hrule] at hname
    have hne : (some "calm" : Option String) ≠ some "ghost" := by decide
    exact hne hname
  · intro hall
    obtain ⟨r, f, hr, hf, hrule, hcode⟩ := exists_finding_hastyRule
    have hcalm : scriptRule "calm" .done ∈
        [hastyRule "hasty" "calm", scriptRule "calm" .done] :=
      List.mem_cons_of_mem _ List.mem_cons_self
    have hmem := hall _ _ _ _ _ [r] rfl (result_analyzeTrees_singleton hr) r
      (List.mem_singleton_self r) f hf _ hcalm (by rw [hrule]; rfl)
    rw [hcode] at hmem
    have hnot : (plainKind "hasty").id ∉ (scriptRule "calm" .done).kindIds := by decide
    exact hnot hmem

end Analysis

end TreeLint
