/-
Rules do not interfere.

A rule that registers and reports only under its own name gets nothing from the other
rules and leaves nothing to them, so what it does among others is what it does alone.
The analysis with a set of such rules has a result exactly if the analyses with each of
them have, and then its result is made of theirs; another order of the rules only mixes
it in another way: `Analysis.analyzeTree_isolated`.

The analysis of all fails with a fault with which that of one of them fails.  So a rule
that fails on some nodes changes nothing for the others, unless its fault cannot be told
and ends the traversal.
-/
import TreeLint.Proofs.Run.Division
import TreeLint.Proofs.Run.Dispatch
namespace TreeLint.Analysis

/-- An accepted set of rules that keep to themselves and register without a fault, for a file with
line starts and a configuration that neither is strict nor limits the findings. -/
structure Separable [Machine] (rules : List Rule) (config : Config) (h : Hierarchy) (links : Links)
    (tree : Tree) : Prop where
  /-- The file has line starts. -/
  starts : tree.lineStarts.size ≠ 0
  /-- The rules are accepted. -/
  accepted : RuleSet.validate rules = .ok ()
  /-- The rules register without a fault. -/
  registers : (building rules config links tree ⟨h, []⟩).1 = .ok ()
  /-- The rules register and report only under their own names. -/
  confined : ∀ r ∈ rules, r.IsConfined
  /-- The configuration is not strict. -/
  lenient : config.strict.isTruthy = false
  /-- The findings of a file are not limited. -/
  unlimited : config.maxFindings = none

/-! ### Findings and comments -/

/-- Comments suppress findings one by one. -/
lemma exists_filterFindings_eq (config : Config) (tree : Tree) :
    ∃ left : Finding → Bool, ∀ findings,
      (filterFindings config tree findings).findings = findings.filter left ∧
      (filterFindings config tree findings).suppressed =
        (findings.filter (fun f => !left f)).length := by
  unfold filterFindings
  rcases commentedText? config tree with _ | text
  · refine ⟨fun _ => true, fun findings => ⟨?_, ?_⟩⟩
    · simp
    · simp
  · refine ⟨fun f => !(Suppressions.ofText text).suppresses f.rule f.location.line,
      fun findings => ⟨rfl, ?_⟩⟩
    have hsplit := (List.filter_append_perm
      (fun f => !(Suppressions.ofText text).suppresses f.rule f.location.line) findings).length_eq
    rw [List.length_append] at hsplit
    simp only [kept]
    omega

/-- Comments only take findings out of those that the calls on a file made. -/
lemma mem_findings_of_mem_filterFindings {findings : List Finding} {f : Finding}
    (hf : f ∈ (filterFindings config tree findings).findings) : f ∈ findings := by
  obtain ⟨left, hleft⟩ := exists_filterFindings_eq config tree
  rw [(hleft _).1] at hf
  exact List.mem_of_mem_filter hf

/-! ### Results that are made of results -/

/-- A result with all rules is made of the results with each of them. -/
structure MadeOf (joint : FileResult) (names : List String) (alone : String → FileResult) :
    Prop where
  /-- The findings of a rule are those of this rule alone, in the same order. -/
  findings_eq : ∀ name ∈ names,
    joint.findings.filter (fun f => f.rule = name) = (alone name).findings
  /-- The failures of a rule are those of this rule alone, in the same order. -/
  failures_eq : ∀ name ∈ names,
    joint.failures.filter (fun f => f.rule = name) = (alone name).failures
  /-- The calls of a rule are counted as those of this rule alone. -/
  timing_eq : ∀ name ∈ names, joint.timing.filter (fun t => t.rule = name) = (alone name).timing
  /-- All findings are findings of rules. -/
  findings_mem : ∀ f ∈ joint.findings, f.rule ∈ names
  /-- The numbers of findings add up. -/
  length_eq : joint.findings.length = (names.map fun name => (alone name).findings.length).sum
  /-- The numbers of suppressed findings add up. -/
  suppressed_eq : joint.suppressed = (names.map fun name => (alone name).suppressed).sum
  /-- The numbers of duplicates add up. -/
  duplicates_eq : joint.duplicates = (names.map fun name => (alone name).duplicates).sum

/-- What a traversal with several rules leaves is made of what the traversals with each leave. -/
lemma madeOf_of_divides {h : Hierarchy} {t : Traversal} {alone : String → Traversal}
    {names : List String} (hnodup : names.Nodup) (ht : t.Divides h names alone) (config : Config)
    (tree : Tree) :
    MadeOf (fileResult config tree t
        (filterFindings config tree t.session.reporter.findings)) names
      (fun name => fileResult config tree (alone name)
        (filterFindings config tree (alone name).session.reporter.findings)) := by
  obtain ⟨left, hleft⟩ := exists_filterFindings_eq config tree
  -- of each sort there are as many findings as in the parts
  have hsort : ∀ sort : Finding → Bool, (t.session.reporter.findings.filter sort).length =
      (names.map fun name =>
        ((alone name).session.reporter.findings.filter sort).length).sum := by
    intro sort
    rw [← (perm_flatMap_filter hnodup Finding.rule _ fun f hf =>
      ht.session.findings_mem f (List.mem_of_mem_filter hf)).length_eq, List.length_flatMap]
    congr 1
    refine List.map_congr_left fun name hname => ?_
    rw [List.filter_comm, (ht.session.each name hname).reporter.findings_eq]
  refine ⟨fun name hname => ?_, ht.failures_eq, fun name hname => ?_,
    fun f hf => ht.session.findings_mem f (mem_findings_of_mem_filterFindings hf), ?_, ?_,
    ht.session.duplicates_eq⟩
  · simp only [fileResult, (hleft _).1]
    rw [List.filter_comm, (ht.session.each name hname).reporter.findings_eq]
  · simp only [fileResult]
    split
    · rw [List.filter_map, ← ht.calls_eq name hname]
      rfl
    · rfl
  · simp only [fileResult, (hleft _).1]
    exact hsort left
  · simp only [fileResult, (hleft _).2]
    exact hsort fun f => !left f

/-- The findings are made of those of the rules by themselves. -/
lemma MadeOf.perm_findings {joint : FileResult} {names : List String}
    {alone : String → FileResult} (hnodup : names.Nodup) (hm : MadeOf joint names alone) :
    (names.flatMap fun name => (alone name).findings).Perm joint.findings := by
  have hperm := perm_flatMap_filter hnodup Finding.rule joint.findings hm.findings_mem
  rwa [List.flatMap_congr hm.findings_eq] at hperm

section

variable [Machine] {rules : List Rule} {config : Config} {h : Hierarchy} {links : Links}
  {tree : Tree}

/-! ### The sessions after registration -/

/-- Rules register together exactly if each of them registers alone. -/
theorem building_divides (hsound : RuleSet.Sound rules) (hconfined : ∀ r ∈ rules, r.IsConfined)
    (hlenient : config.strict.isTruthy = false) (hunlimited : config.maxFindings = none)
    (h : Hierarchy) (links : Links) (tree : Tree) :
    (∃ alone, (building rules config links tree ⟨h, []⟩).1 = .ok () ∧
      (built rules config links tree ⟨h, []⟩).Divides h (rules.filterMap Rule.name?) alone ∧
      ∀ r ∈ rules, ∀ name, r.name? = some name →
        (building [r] config links tree ⟨h, []⟩).1 = .ok () ∧
          built [r] config links tree ⟨h, []⟩ = alone name) ∨
    ∃ f, (building rules config links tree ⟨h, []⟩).1 = .error f ∧
      ∃ r ∈ rules, (building [r] config links tree ⟨h, []⟩).1 = .error f := by
  have hcards : ∀ r ∈ rules, ∃ card, r.card = some card :=
    fun r hr => (hsound.rule r hr).imp fun card hcard => hcard.1
  have hlimit : (reporterFor config tree).limit = none := by
    simp only [reporterFor, hunlimited]
    rfl
  -- at the start the rule of a name alone may add handlers under this name only
  let start : String → Session :=
    fun name => ⟨reporterFor config tree, { allowed := some [name] }, ⟨h, []⟩⟩
  have hstart : (RuleSet.opening rules (reporterFor config tree) ⟨h, []⟩).session.Divides h
      (rules.filterMap Rule.name?) start := by
    refine ⟨fun name hname => ⟨⟨rfl, rfl, hlenient, hlenient, hlimit, hlimit, rfl,
      fun _ _ => Iff.rfl⟩, ⟨rfl, ?_, ?_, fun _ => rfl⟩, .empty h, .empty h⟩, ?_, ?_⟩
    · simpa [Registry.isAllowed, RuleSet.opening] using hname
    · simp [start, Registry.isAllowed]
    · simp [RuleSet.opening, reporterFor]
    · simp [RuleSet.opening, reporterFor, start]
  have hopening : ∀ r name, r.name? = some name →
      RuleSet.opening [r] (reporterFor config tree) ⟨h, []⟩ = ⟨start name, []⟩ := by
    intro r name hname
    rw [RuleSet.opening, List.filterMap_cons_some hname]
    rfl
  have hbuild : ∀ rs ⊆ rules, (building rs config links tree ⟨h, []⟩).1 =
        (RuleSet.enrollAll (contextFor config tree) links rs
          (RuleSet.opening rs (reporterFor config tree) ⟨h, []⟩)).1 ∧
      ((RuleSet.enrollAll (contextFor config tree) links rs
          (RuleSet.opening rs (reporterFor config tree) ⟨h, []⟩)).1 = .ok () →
        built rs config links tree ⟨h, []⟩ = (RuleSet.enrollAll (contextFor config tree) links rs
          (RuleSet.opening rs (reporterFor config tree) ⟨h, []⟩)).2.session.freeze) :=
    fun rs hrs => RuleSet.buildRegistry_of_cards _ _ _ _ fun r hr => hcards r (hrs hr)
  have hsingle : ∀ r ∈ rules, [r] ⊆ rules := fun r hr => by simpa using hr
  obtain ⟨hjoint, hbuilt⟩ := hbuild rules (List.Subset.refl _)
  rcases RuleSet.enrollAll_divides (contextFor config tree) hsound.names hconfined
      (fun r hr => hsound.exists_name hr)
      hsound.names (List.Subset.refl _) links hstart with
    ⟨alone, hok, hdivides, heach, -⟩ | ⟨f, herror, r, hr, name, hname, hf⟩
  · refine .inl ⟨fun name => (alone name).freeze, hjoint.trans hok, ?_, fun r hr name hname => ?_⟩
    · rw [hbuilt hok]
      exact hdivides.freeze
    · obtain ⟨hone, honeBuilt⟩ := hbuild [r] (hsingle r hr)
      obtain ⟨hrok, hsession⟩ := heach r hr name hname
      rw [hopening r name hname, RuleSet.enrollAll_singleton] at hone honeBuilt
      exact ⟨hone.trans hrok, by rw [honeBuilt hrok, hsession]⟩
  · obtain ⟨hone, -⟩ := hbuild [r] (hsingle r hr)
    rw [hopening r name hname, RuleSet.enrollAll_singleton] at hone
    exact .inr ⟨f, hjoint.trans herror, r, hr, hone.trans hf⟩

namespace Separable

lemma sound (hs : Separable rules config h links tree) : RuleSet.Sound rules :=
  (RuleSet.validate_eq_ok_iff rules).1 hs.accepted

/-- Each of the rules by itself. -/
lemma singleton (hs : Separable rules config h links tree) {r : Rule} (hr : r ∈ rules) :
    Separable [r] config h links tree where
  starts := hs.starts
  accepted := (RuleSet.validate_eq_ok_iff [r]).2 (hs.sound.singleton hr)
  registers := by
    obtain ⟨name, hname⟩ := hs.sound.exists_name hr
    rcases building_divides hs.sound hs.confined hs.lenient hs.unlimited h links tree with
      ⟨alone, -, -, heach⟩ | ⟨f, herror, -⟩
    · exact (heach r hr name hname).1
    · rw [hs.registers] at herror
      cases herror
  confined r' hr' := hs.confined r' (by rwa [List.mem_singleton.1 hr'])
  lenient := hs.lenient
  unlimited := hs.unlimited

/-- The same rules in another order. -/
lemma perm (hs : Separable rules config h links tree) {rules' : List Rule}
    (hperm : rules'.Perm rules) : Separable rules' config h links tree where
  starts := hs.starts
  accepted := (RuleSet.validate_eq_ok_iff rules').2 (hs.sound.perm hperm)
  registers := by
    rcases building_divides (hs.sound.perm hperm) (fun r hr => hs.confined r (hperm.mem_iff.1 hr))
        hs.lenient hs.unlimited h links tree with ⟨alone, hok, -⟩ | ⟨f, -, r, hr, herror⟩
    · exact hok
    · rw [(hs.singleton (hperm.mem_iff.1 hr)).registers] at herror
      cases herror
  confined r hr := hs.confined r (hperm.mem_iff.1 hr)
  lenient := hs.lenient
  unlimited := hs.unlimited

end Separable

/-! ### The traversals -/

/-- A call to be made is one of a rule, and reports only under its name. -/
lemma Separable.reportsOnly_of_mem_plan (hs : Separable rules config h links tree) {c : Call}
    (hc : c ∈ plan rules config links tree ⟨h, []⟩) :
    c.processor.rule ∈ rules.filterMap Rule.name? ∧
      (c.script (contextFor config tree) links).ReportsOnly (·.rule = c.processor.rule) := by
  refine handlers_of_mem_plan (Q := fun name script =>
    name ∈ rules.filterMap Rule.name? ∧ script.ReportsOnly (·.rule = name)) ?_ hs.registers c hc _
  intro r hr card setup hcard hsetup context
  refine (hs.confined r hr card setup hcard hsetup context).2.mono ?_
  rintro reg ⟨hrule, hreports⟩ handler hhandler context site
  rw [hrule]
  exact ⟨List.mem_filterMap.2 ⟨r, hr, r.name?_of_card hcard⟩,
    hreports handler hhandler context site⟩

/-- The calls of all rules end exactly if those of one of them do, and otherwise leave what the
calls of each leave. -/
theorem traversed_divides (hs : Separable rules config h links tree) :
    (∃ t alone, traversed rules config links tree ⟨h, []⟩ = (none, t) ∧
      t.Divides h (rules.filterMap Rule.name?) alone ∧
      ∀ r ∈ rules, ∀ name, r.name? = some name →
        traversed [r] config links tree ⟨h, []⟩ = (none, alone name)) ∨
    ∃ f t, traversed rules config links tree ⟨h, []⟩ = (some f, t) ∧
      ∃ r ∈ rules, ∃ t', traversed [r] config links tree ⟨h, []⟩ = (some f, t') := by
  rcases building_divides hs.sound hs.confined hs.lenient hs.unlimited h links tree with
    ⟨alone, -, hdivides, heach⟩ | ⟨f, herror, -⟩
  · have hplan : ∀ r ∈ rules, ∀ name, r.name? = some name →
        (plan rules config links tree ⟨h, []⟩).filter (fun c => c.processor.rule = name) =
          plan [r] config links tree ⟨h, []⟩ := by
      intro r hr name hname
      rw [plan, plan, (heach r hr name hname).2, Traversal.agenda, List.filter_flatMap,
        Traversal.agenda]
      refine List.flatMap_congr fun n _ => ?_
      rw [List.filter_map, ← (hdivides.each name
        (List.mem_filterMap.2 ⟨r, hr, hname⟩)).registry.processors_eq]
      rfl
    have htraversed : ∀ r ∈ rules, ∀ name, r.name? = some name →
        traversed [r] config links tree ⟨h, []⟩ =
          Traversal.performAll config.strict.isTruthy (contextFor config tree) links
            ((plan rules config links tree ⟨h, []⟩).filter fun c => c.processor.rule = name)
            { session := alone name } := by
      intro r hr name hname
      rw [traversed, hplan r hr name hname, (heach r hr name hname).2]
    have hstart : Traversal.Divides h (rules.filterMap Rule.name?)
        { session := built rules config links tree ⟨h, []⟩ }
        (fun name => { session := alone name }) := ⟨hdivides, fun _ _ => rfl, fun _ _ => rfl⟩
    rcases Traversal.performAll_divides config.strict.isTruthy (contextFor config tree) links
        hs.sound.names _ (fun c hc => hs.reportsOnly_of_mem_plan hc) (frozen_built hs.registers)
        hstart with ⟨t, alone', hnone, hafter, hsame⟩ | ⟨f, t, hsome, name, hname, t', hf⟩
    · refine .inl ⟨t, alone', hnone, hafter, fun r hr name hname => ?_⟩
      rw [htraversed r hr name hname]
      exact hsame name (List.mem_filterMap.2 ⟨r, hr, hname⟩)
    · obtain ⟨r, hr, hname⟩ := List.mem_filterMap.1 hname
      exact .inr ⟨f, t, hsome, r, hr, t', by rw [htraversed r hr name hname]; exact hf⟩
  · rw [hs.registers] at herror
    cases herror

/-! ### The results -/

/-- A set of rules has a result exactly if each of them has, and then it is made of theirs. -/
theorem result_of_separable (hs : Separable rules config h links tree) :
    (∃ joint alone, (analyzeTree rules config h links tree).result = .ok joint ∧
      MadeOf joint (rules.filterMap Rule.name?) alone ∧
      ∀ r ∈ rules, ∀ name, r.name? = some name →
        (analyzeTree [r] config h links tree).result = .ok (alone name)) ∨
    ∃ f, (analyzeTree rules config h links tree).result = .error f ∧
      ∃ r ∈ rules, (analyzeTree [r] config h links tree).result = .error f := by
  rcases traversed_divides hs with ⟨t, alone, hnone, ht, heach⟩ | ⟨f, t, hsome, r, hr, t', hf⟩
  · refine .inl ⟨_, _, result_analyzeTree_of_returned hs.accepted hs.registers hnone,
      madeOf_of_divides hs.sound.names ht config tree, fun r hr name hname => ?_⟩
    have hone := hs.singleton hr
    exact result_analyzeTree_of_returned hone.accepted hone.registers (heach r hr name hname)
  · have hone := hs.singleton hr
    exact .inr ⟨f, result_analyzeTree_of_ended hs.accepted hs.registers hsome, r, hr,
      result_analyzeTree_of_ended hone.accepted hone.registers hf⟩

/-- A result of a set of rules is made of those of its rules by themselves. -/
lemma madeOf_of_result (hs : Separable rules config h links tree) {joint : FileResult}
    (hjoint : (analyzeTree rules config h links tree).result = .ok joint) :
    ∃ alone, MadeOf joint (rules.filterMap Rule.name?) alone ∧
      ∀ r ∈ rules, ∀ name, r.name? = some name →
        (analyzeTree [r] config h links tree).result = .ok (alone name) := by
  rcases result_of_separable hs with ⟨joint', alone, hok, hmade, heach⟩ | ⟨f, herror, -⟩
  · rw [hok] at hjoint
    cases hjoint
    exact ⟨alone, hmade, heach⟩
  · rw [herror] at hjoint
    cases hjoint

/-- The findings of a rule do not depend on the other rules of a set. -/
lemma findings_eq_of_mem (hs : Separable rules config h links tree) {joint : FileResult}
    (hjoint : (analyzeTree rules config h links tree).result = .ok joint) {others : List Rule}
    (hothers : Separable others config h links tree) {other : FileResult}
    (hother : (analyzeTree others config h links tree).result = .ok other) {r : Rule}
    (hr : r ∈ rules) (hr' : r ∈ others) {name : String} (hname : r.name? = some name) :
    other.findings.filter (fun f => f.rule = name) =
      joint.findings.filter (fun f => f.rule = name) := by
  obtain ⟨alone, hmade, heach⟩ := madeOf_of_result hs hjoint
  obtain ⟨alone', hmade', heach'⟩ := madeOf_of_result hothers hother
  have hsame : alone' name = alone name :=
    Except.ok.inj ((heach' r hr' name hname).symm.trans (heach r hr name hname))
  rw [hmade'.findings_eq name (List.mem_filterMap.2 ⟨r, hr', hname⟩),
    hmade.findings_eq name (List.mem_filterMap.2 ⟨r, hr, hname⟩), hsame]

/-- In another order of the rules the findings come in another order. -/
lemma exists_result_of_perm (hs : Separable rules config h links tree) {joint : FileResult}
    (hjoint : (analyzeTree rules config h links tree).result = .ok joint) {rules' : List Rule}
    (hperm : rules'.Perm rules) :
    ∃ other, (analyzeTree rules' config h links tree).result = .ok other ∧
      other.findings.Perm joint.findings ∧
      ∀ name, other.findings.filter (fun f => f.rule = name) =
        joint.findings.filter (fun f => f.rule = name) := by
  obtain ⟨alone, hmade, heach⟩ := madeOf_of_result hs hjoint
  have hs' := hs.perm hperm
  rcases result_of_separable hs' with
    ⟨other, alone', hother, hmade', heach'⟩ | ⟨f, -, r, hr, herror⟩
  · have hsame : ∀ name ∈ rules.filterMap Rule.name?, alone' name = alone name := by
      intro name hname
      obtain ⟨r, hr, hname⟩ := List.mem_filterMap.1 hname
      exact Except.ok.inj ((heach' r (hperm.mem_iff.2 hr) name hname).symm.trans
        (heach r hr name hname))
    have hnames := hperm.filterMap Rule.name?
    refine ⟨other, hother, ?_, fun name => ?_⟩
    · refine (hmade'.perm_findings hs'.sound.names).symm.trans
        (((hnames.flatMap_right _).trans ?_).trans (hmade.perm_findings hs.sound.names))
      rw [List.flatMap_congr fun name hname => by rw [hsame name hname]]
    · by_cases hname : name ∈ rules.filterMap Rule.name?
      · obtain ⟨r, hr, hname⟩ := List.mem_filterMap.1 hname
        exact findings_eq_of_mem hs hjoint hs' hother hr (hperm.mem_iff.2 hr) hname
      -- no finding has a name that no rule has
      · rw [List.filter_eq_nil_iff.2, List.filter_eq_nil_iff.2]
        · intro f hf heq
          exact hname (of_decide_eq_true heq ▸ hmade.findings_mem f hf)
        · intro f hf heq
          exact hname (hnames.mem_iff.1 (of_decide_eq_true heq ▸ hmade'.findings_mem f hf))
  · obtain ⟨name, hname⟩ := hs.sound.exists_name (hperm.mem_iff.1 hr)
    rw [heach r (hperm.mem_iff.1 hr) name hname] at herror
    cases herror

/-- **Rules do not interfere.**  Let the rules of an accepted set register and report only under
their own names, on a file with line starts and outside strict mode, without a limit of findings.
The file has a result exactly if it has one for each of the rules by itself, and if it has none, the
fault is that of one of the rules by itself.

The findings, failures and counted calls under the name of a rule are those of the rule alone, in
the same order; the numbers of findings, of suppressed ones and of duplicates are sums over the
rules.  The findings of a rule are the same in any other such set of rules that has a result,
whatever else is in it, and in another order of the rules the findings come in another order. -/
theorem analyzeTree_isolated (rules : List Rule) (config : Config) (h : Hierarchy) (links : Links)
    (tree : Tree) (hs : Separable rules config h links tree) :
    ((∃ joint, (analyzeTree rules config h links tree).result = .ok joint) ↔
      ∀ r ∈ rules, ∃ alone, (analyzeTree [r] config h links tree).result = .ok alone) ∧
    (∀ f, (analyzeTree rules config h links tree).result = .error f →
      ∃ r ∈ rules, (analyzeTree [r] config h links tree).result = .error f) ∧
    ∀ joint, (analyzeTree rules config h links tree).result = .ok joint →
      (∃ alone, MadeOf joint (rules.filterMap Rule.name?) alone ∧
        ∀ r ∈ rules, ∃ name, r.name? = some name ∧
          (analyzeTree [r] config h links tree).result = .ok (alone name)) ∧
      (∀ others, Separable others config h links tree →
        ∀ other, (analyzeTree others config h links tree).result = .ok other →
          ∀ r ∈ rules, r ∈ others → ∀ name, r.name? = some name →
            other.findings.filter (fun f => f.rule = name) =
              joint.findings.filter (fun f => f.rule = name)) ∧
      ∀ rules', rules'.Perm rules → ∃ other,
        (analyzeTree rules' config h links tree).result = .ok other ∧
        other.findings.Perm joint.findings ∧
        ∀ name, other.findings.filter (fun f => f.rule = name) =
          joint.findings.filter (fun f => f.rule = name) := by
  refine ⟨⟨?_, ?_⟩, ?_, fun joint hjoint => ⟨?_, ?_, ?_⟩⟩
  · rintro ⟨joint, hjoint⟩ r hr
    obtain ⟨alone, -, heach⟩ := madeOf_of_result hs hjoint
    obtain ⟨name, hname⟩ := hs.sound.exists_name hr
    exact ⟨_, heach r hr name hname⟩
  · intro hall
    rcases result_of_separable hs with ⟨joint, alone, hok, -⟩ | ⟨f, -, r, hr, herror⟩
    · exact ⟨joint, hok⟩
    · obtain ⟨alone, hok⟩ := hall r hr
      rw [hok] at herror
      cases herror
  · intro f hf
    rcases result_of_separable hs with ⟨joint, alone, hok, -⟩ | ⟨f', hf', r, hr, herror⟩
    · rw [hok] at hf
      cases hf
    · rw [hf'] at hf
      cases hf
      exact ⟨r, hr, herror⟩
  · obtain ⟨alone, hmade, heach⟩ := madeOf_of_result hs hjoint
    refine ⟨alone, hmade, fun r hr => ?_⟩
    obtain ⟨name, hname⟩ := hs.sound.exists_name hr
    exact ⟨name, hname, heach r hr name hname⟩
  · intro others hothers other hother r hr hr' name hname
    exact findings_eq_of_mem hs hjoint hothers hother hr hr' hname
  · exact fun rules' hperm => exists_result_of_perm hs hjoint hperm

end

/-- A handler that reports the node. -/
def findingHandler : Handler := fun _ site =>
  .reportOnce ⟨"finding", site.node.span, plainKind "finding", []⟩

/-- A rule that finds every block. -/
def findingRule : Rule := blockRule "finding" findingHandler

/-- A rule that fails on every block. -/
def failingRule (f : Fault) : Rule := blockRule "failing" fun _ _ => .fail f

/-- A rule with one handler, which is added under its name and reports under it, keeps to itself. -/
lemma isConfined_blockRule (name : String) (handler : Handler)
    (hreports : ∀ context site, (handler context site).ReportsOnly (·.rule = name)) :
    (blockRule name handler).IsConfined := by
  intro card setup hcard hsetup context
  cases hcard
  cases hsetup
  refine ⟨Script.reportsOnly_addAll _ _, Script.addsOnly_addAll (List.forall_mem_singleton.2
    ⟨rfl, fun handler' hhandler context site => ?_⟩)⟩
  cases hhandler
  exact hreports context site

section

variable [Machine]

lemma separable_failingRule (f : Fault) : Separable [failingRule f, findingRule] Config.default
    Hierarchy.standard ∅ Traversal.blockFile := by
  have hnodup : ["failing", "finding"].Nodup := by decide
  have hsound : RuleSet.Sound [failingRule f, findingRule] := by
    refine ⟨?_, hnodup, hnodup⟩
    rw [List.forall_mem_cons, List.forall_mem_singleton]
    exact ⟨isSound_blockRule _ _, isSound_blockRule _ _⟩
  refine ⟨Nat.one_ne_zero, (RuleSet.validate_eq_ok_iff _).2 hsound, rfl, ?_, rfl, rfl⟩
  rw [List.forall_mem_cons, List.forall_mem_singleton]
  exact ⟨isConfined_blockRule _ _ (fun _ _ => trivial),
    isConfined_blockRule _ _ (fun _ _ => ⟨rfl, fun answer => by cases answer <;> trivial⟩)⟩

/-- The finding rule has a result by itself of every file with one block. -/
lemma exists_result_findingRule {config : Config} (hlenient : config.strict.isTruthy = false)
    (h : Hierarchy) (links : Links) {tree : Tree} (hroot : tree.root = Traversal.blockFile.root)
    (hstarts : tree.lineStarts.size ≠ 0) :
    ∃ r, (analyzeTree [findingRule] config h links tree).result = .ok r := by
  obtain ⟨-, registry, hbuilt, -⟩ :=
    building_blockRule "finding" findingHandler config links tree ⟨h, []⟩
  have hreporter : (built [blockRule "finding" findingHandler] config links tree ⟨h, []⟩).reporter =
      (reporterFor config tree).declare "finding" ["finding"] := by
    rw [hbuilt]
  have hstrict : ((reporterFor config tree).declare "finding" ["finding"]).strict = false :=
    hlenient
  obtain ⟨answer, hanswer⟩ : ∃ answer, ((built [blockRule "finding" findingHandler] config links
      tree ⟨h, []⟩).reporter.report ⟨"finding", ⟨0, 2⟩, plainKind "finding", []⟩).1 =
        .ok answer := by
    rw [hreporter]
    exact exists_answer_plainKind hstarts (Reporter.vocabularyFault?_of_lenient hstrict _)
  refine (exists_result_blockRule_iff "finding" findingHandler config h links hroot hstarts).2 ?_
  rw [Record.ending?, Traversal.fault_recordOf
    (c := ⟨Traversal.blockFile.root, ⟨"finding", "finding", findingHandler⟩⟩)
    (Script.reportOnce_of_ok "finding" links hanswer).2]

/-- The failing rule has a result by itself exactly if its fault can be told. -/
lemma exists_result_failingRule_iff (f : Fault) :
    (∃ r, (analyzeTree [failingRule f] Config.default Hierarchy.standard ∅
      Traversal.blockFile).result = .ok r) ↔ f.untold? = none := by
  have hlenient : Config.default.strict.isTruthy = false := rfl
  rw [failingRule, exists_result_blockRule_iff _ _ _ _ _ rfl Nat.one_ne_zero, hlenient]
  simp [Traversal.recordOf, Call.script, Script.run, Record.ending?_lenient_eq_none_iff]

end

attribute [local instance] Machine.small

theorem analyzeTree_isolated_failing :
    Separable [failingRule .uncountable, findingRule] Config.default Hierarchy.standard ∅
        Traversal.blockFile ∧
      ∃ joint alone, (analyzeTree [failingRule .uncountable, findingRule] Config.default
          Hierarchy.standard ∅ Traversal.blockFile).result = .ok joint ∧
        (analyzeTree [findingRule] Config.default Hierarchy.standard ∅
          Traversal.blockFile).result = .ok alone ∧
        joint.findings.filter (fun f => f.rule = "finding") = alone.findings := by
  have hs := separable_failingRule .uncountable
  obtain ⟨hiff, -, hmade⟩ := analyzeTree_isolated _ _ _ _ _ hs
  have htold : Fault.untold? .uncountable = none := rfl
  obtain ⟨joint, hjoint⟩ := hiff.2 (by
    rw [List.forall_mem_cons, List.forall_mem_singleton]
    exact ⟨(exists_result_failingRule_iff _).2 htold,
      exists_result_findingRule rfl _ _ rfl Nat.one_ne_zero⟩)
  obtain ⟨⟨alone, hall, heach⟩, -⟩ := hmade joint hjoint
  obtain ⟨name, hname, hresult⟩ := heach findingRule (by simp)
  cases hname
  exact ⟨hs, joint, alone "finding", hjoint, hresult,
    hall.findings_eq "finding" (List.mem_filterMap.2 ⟨findingRule, by simp, rfl⟩)⟩

/-- A rule whose fault cannot be told leaves the others without a result. -/
theorem not_forall_isolated :
    ¬∀ (rules : List Rule) (config : Config) (h : Hierarchy) (links : Links) (tree : Tree),
      Separable rules config h links tree →
        ∀ r ∈ rules, ∀ alone, (analyzeTree [r] config h links tree).result = .ok alone →
          ∃ joint, (analyzeTree rules config h links tree).result = .ok joint ∧
            ∀ name, r.name? = some name →
              joint.findings.filter (fun f => f.rule = name) = alone.findings := by
  intro hall
  have hs := separable_failingRule Traversal.untellable
  have hresult : ∃ r, (analyzeTree [findingRule] Config.default Hierarchy.standard ∅
      Traversal.blockFile).result = .ok r := exists_result_findingRule rfl _ _ rfl Nat.one_ne_zero
  obtain ⟨alone, halone⟩ := hresult
  obtain ⟨joint, hjoint, -⟩ := hall _ _ _ _ _ hs findingRule (by simp) alone halone
  rcases result_of_separable hs with ⟨joint', parts, -, -, heach⟩ | ⟨f, herror, -⟩
  · have huntold := (exists_result_failingRule_iff Traversal.untellable).1
      ⟨_, heach (failingRule Traversal.untellable) (by simp) "failing" rfl⟩
    rw [Traversal.untold?_untellable] at huntold
    cases huntold
  · rw [herror] at hjoint
    cases hjoint

end TreeLint.Analysis
