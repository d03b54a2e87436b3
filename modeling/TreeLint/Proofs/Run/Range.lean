/-
Findings that a machine-readable report takes.

A finding is in range if its severity is one of the known ones, its span is not
negative, and its line and column count from one.  The reporter checks none of this.
The severity is that of the reported kind or comes from the configuration, which
refuses unknown ones (`Config.severities_of_ofArguments`), and the span is that of the
report.  The location is in range if the line starts ascend from zero, as those do that
a tree takes from its text (`Tree.startsAtZero_lineStartsOf`): an offset before the
text counts as its beginning, so it never lies before the first start.

Each report keeps the findings in range, hence so does the analysis of a file:
`Analysis.forall_isInRange`.
-/
import TreeLint.Proofs.Config.Options
import TreeLint.Proofs.Run.Isolation
import TreeLint.Proofs.Syntax.Lines
namespace TreeLint

/-! ### Locations -/

namespace Location

/-- Whether line starts ascend from zero. -/
structure StartsAtZero (starts : Array Int) : Prop where
  head? : starts.toList.head? = some 0
  ascending : IsAscending starts

lemma startsAtZero_startsOf (text : String) : StartsAtZero (startsOf text) :=
  ⟨rfl, isAscending_startsOf text⟩

/-- With line starts that ascend from zero every offset is located by a line and a column that count
from one. -/
lemma one_le_of_ofOffset? {starts : Array Int} (h : StartsAtZero starts) {offset : Int}
    {l : Location} (hl : ofOffset? starts offset = some l) : 1 ≤ l.line ∧ 1 ≤ l.column := by
  have hcount := countUpTo_of_isAscending h.ascending (max offset 0)
  -- the first start is zero, so at least one start is not behind the offset
  have hpos : 0 < starts.toList.countP (· ≤ max offset 0) := by
    refine List.countP_pos_iff.2 ⟨0, List.mem_of_mem_head? h.head?, ?_⟩
    simp only [decide_eq_true_eq]
    omega
  obtain ⟨k, hk⟩ := Nat.exists_eq_succ_of_ne_zero (Nat.ne_of_gt hpos)
  simp only [ofOffset?, hcount, hk] at hl
  obtain ⟨s, hs, rfl⟩ := Option.map_eq_some_iff.1 hl
  have hlt : k < starts.toList.length := by
    have hle : starts.toList.countP (· ≤ max offset 0) ≤ starts.toList.length :=
      List.countP_le_length
    omega
  have hstart := (lt_countP_iff h.ascending (max offset 0) hlt).1 (by omega)
  have hs' : starts.toList[k] = s := by
    rw [← Array.getElem?_toList, List.getElem?_eq_getElem hlt] at hs
    exact Option.some.inj hs
  rw [hs'] at hstart
  show 1 ≤ (k : Int) + 1 ∧ 1 ≤ max offset 0 - s + 1
  omega

end Location

/-- The line starts that a tree takes from its text, or has without one, ascend from zero. -/
lemma Tree.startsAtZero_lineStartsOf (text : Option String) :
    Location.StartsAtZero (Tree.lineStartsOf text none) := by
  cases text with
  | none => exact Location.startsAtZero_startsOf ""
  | some t => exact Location.startsAtZero_startsOf t

/-! ### Severities -/

namespace Config

variable {options : List (String × Value)} {config : Config}

/-- A configuration that is accepted names known severities only. -/
lemma severities_of_ofArguments [Machine] (h : ofArguments options = .ok config) :
    ∀ e ∈ config.severityTable, e.2 ∈ severities := by
  obtain ⟨-, hoptions⟩ := ofArguments_eq_ok_iff.1 h
  obtain ⟨-, hknown⟩ := ofOptions_eq_ok_iff.1 hoptions
  intro e he
  obtain ⟨⟨rule, severity⟩, hmem, hrule⟩ := List.mem_filterMap.1 he
  cases rule <;> cases hrule
  exact hknown _ hmem

end Config

/-! ### One report -/

/-- A finding with a known severity, a span that is not negative, and a line and a column that count
from one. -/
structure Finding.IsInRange (f : Finding) : Prop where
  severity : f.severity ∈ severities
  start : 0 ≤ f.span.start
  stop : 0 ≤ f.span.stop
  line : 1 ≤ f.location.line
  column : 1 ≤ f.location.column

/-- A report of a kind with a known severity, about a span that is not negative. -/
structure Report.IsInRange (r : Report) : Prop where
  severity : r.code.severity ∈ severities
  start : 0 ≤ r.span.start
  stop : 0 ≤ r.span.stop

/-- Whether a reporter replaces severities by known ones only, locates by line starts that ascend
from zero, and holds findings in range. -/
structure Reporter.IsInRange (r : Reporter) : Prop where
  severities : ∀ e ∈ r.severities, e.2 ∈ TreeLint.severities
  lineStarts : Location.StartsAtZero r.tree.lineStarts
  findings : ∀ f ∈ r.findings, f.IsInRange

namespace Reporter

variable {r : Reporter}

/-- The severity of a finding is one that replaces it, or that of its kind. -/
lemma severity_findingOf_mem {report : Report}
    (hseverities : ∀ e ∈ r.severities, e.2 ∈ TreeLint.severities)
    (hreport : report.code.severity ∈ TreeLint.severities) (message : String) (l : Location) :
    (r.findingOf report message l).severity ∈ TreeLint.severities := by
  show (r.severities.lookup report.rule).getD report.code.severity ∈ TreeLint.severities
  rcases hlookup : r.severities.lookup report.rule with _ | severity
  · exact hreport
  · obtain ⟨before, after, htable, -⟩ := List.lookup_eq_some_iff.1 hlookup
    exact hseverities (report.rule, severity) (by rw [htable]; simp)

/-- A report in range makes a finding in range. -/
lemma IsInRange.findingOf (h : r.IsInRange) {report : Report} (hreport : report.IsInRange)
    (message : String) {l : Location} (hl : r.tree.location report.span.start = .ok l) :
    (r.findingOf report message l).IsInRange := by
  have hplace : Location.ofOffset? r.tree.lineStarts report.span.start = some l := by
    unfold Tree.location at hl
    split at hl
    · next hl' =>
      cases hl
      exact hl'
    · cases hl
  obtain ⟨hline, hcolumn⟩ := Location.one_le_of_ofOffset? h.lineStarts hplace
  exact ⟨severity_findingOf_mem h.severities hreport.severity message l, hreport.start,
    hreport.stop, hline, hcolumn⟩

/-- A report in range keeps the findings in range. -/
lemma IsInRange.report [Machine] (h : r.IsInRange) {report : Report} (hreport : report.IsInRange) :
    (r.report report).2.IsInRange := by
  rcases r.report_cases report with
    ⟨f, heq⟩ | ⟨-, heq⟩ | ⟨-, -, heq⟩ | ⟨-, -, finding, hfinding, heq⟩ <;> rw [heq]
  · exact h
  · exact ⟨h.severities, h.lineStarts, h.findings⟩
  · exact ⟨h.severities, h.lineStarts, h.findings⟩
  · obtain ⟨location, message, hlocation, -, rfl⟩ := (r.finding_eq_ok_iff report).1 hfinding
    refine ⟨h.severities, h.lineStarts, fun f hf => ?_⟩
    rcases List.mem_append.1 hf with hf | hf
    · exact h.findings f hf
    · rw [List.mem_singleton.1 hf]
      exact h.findingOf hreport message hlocation

end Reporter

/-! ### The analysis of files -/

/-- Whether a rule makes only reports of one sort on a file: when it registers, and by its handlers
on the nodes of the file. -/
def Rule.ReportsOnlyOn (reports : Report → Prop) (context : Context) (links : Links) (r : Rule) :
    Prop :=
  r.SetsUpIn context fun _ script => script.ReportsOnly reports ∧ script.AddsOnly fun reg =>
    ∀ handler, reg.handler = some handler → ∀ n ∈ context.tree.root.preorder,
      (handler context (links.site n)).ReportsOnly reports

lemma Rule.ReportsOnlyOn.mono {reports reports' : Report → Prop} {context : Context} {links : Links}
    {r : Rule} (hr : r.ReportsOnlyOn reports context links)
    (h : ∀ report, reports report → reports' report) : r.ReportsOnlyOn reports' context links :=
  Rule.SetsUpIn.mono hr fun _ _ hscript => ⟨hscript.1.mono h, hscript.2.mono fun _ hreg handler
    hhandler n hn => (hreg handler hhandler n hn).mono h⟩

variable [Machine]

/-- Reports in range keep the findings in range. -/
lemma Session.isInRange_invariant :
    Session.Invariant Report.IsInRange (fun _ => True) (fun s => s.reporter.IsInRange) where
  report h hreport := h.report hreport
  add h _ _ := h
  question h := h

namespace Analysis

variable {rules : List Rule} {config : Config} {h : Hierarchy} {links : Links}
  {trees : List Tree} {results : List FileResult} {tree : Tree} {m : Supertypes}

/-- Rules that make reports in range make findings in range. -/
lemma isInRange_traversed (hconfig : ∀ e ∈ config.severityTable, e.2 ∈ severities)
    (hstarts : Location.StartsAtZero tree.lineStarts)
    (hreports : ∀ r ∈ rules, r.ReportsOnlyOn Report.IsInRange (contextFor config tree) links)
    (hbuild : (building rules config links tree m).1 = .ok ()) :
    (traversed rules config links tree m).2.session.reporter.IsInRange := by
  have hrun (owner : String) (script : Script) (hscript : script.ReportsOnly Report.IsInRange)
      (s : Session) (hs : s.reporter.IsInRange) :
      (script.run owner links s).2.reporter.IsInRange :=
    script.run_preserves Session.isInRange_invariant owner links hscript
      (script.addsOnly_of_forall fun _ => trivial) hs
  have hbuilt : (built rules config links tree m).reporter.IsInRange :=
    RuleSet.buildRegistry_preserves (P := fun s => s.reporter.IsInRange)
      (fun _ _ _ hs => ⟨hs.severities, hs.lineStarts, hs.findings⟩) (fun _ hs => hs)
      (fun rule hrule => Rule.SetsUpIn.mono (hreports rule hrule) fun name script hscript =>
        hrun name script hscript.1) ⟨hconfig, hstarts, nofun⟩ hbuild
  have hhandlers := RuleSet.handlers_of_buildRegistry
    (Q := fun _ handler => ∀ n ∈ tree.root.preorder,
      (handler (contextFor config tree) (links.site n)).ReportsOnly Report.IsInRange)
    (fun rule hrule => Rule.SetsUpIn.mono (hreports rule hrule) fun _ _ hscript => hscript.2) hbuild
  refine Traversal.performAll_preserves (P := fun s => s.reporter.IsInRange) _ _ links _
    (fun c hc => ?_) hbuilt
  obtain ⟨hnode, hprocessor⟩ := Traversal.mem_agenda_iff.1 hc
  exact hrun c.owner _ (hhandlers _ _ hprocessor c.node hnode)

/-- Rules that make reports in range, on files located by line starts that ascend from zero, make
findings in range. -/
theorem forall_isInRange
    (hresults : (analyzeTrees rules config h links trees).result = .ok results)
    (hconfig : ∀ e ∈ config.severityTable, e.2 ∈ severities)
    (hstarts : ∀ tree ∈ trees, Location.StartsAtZero tree.lineStarts)
    (hreports : ∀ r ∈ rules, ∀ tree ∈ trees,
      r.ReportsOnlyOn Report.IsInRange (contextFor config tree) links) :
    ∀ result ∈ results, ∀ f ∈ result.findings, f.IsInRange := by
  intro result hmem f hf
  obtain ⟨tree, htree, t, -, hbuild, hrun, rfl⟩ := exists_traversal_of_mem_results hresults hmem
  have hend := isInRange_traversed hconfig (hstarts tree htree)
    (fun r hr => hreports r hr tree htree) hbuild
  rw [hrun] at hend
  exact hend.findings f (mem_findings_of_mem_filterFindings hf)

end Analysis

end TreeLint
