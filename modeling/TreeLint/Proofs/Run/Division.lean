/-
The sessions of rules that keep to themselves.

The rules of a file share one reporter, one registry and one memory of the classes.
A rule that adds handlers and reports only under its own name still gets nothing from
the others and leaves nothing to them.  `Session.Restricts` relates the session of all
rules with that of one of them, as far as this rule is concerned; `Session.Divides`
relates it with the sessions of all of them, each by itself, and keeps account of what
they share.

A step under one name is a step in the common session and in the session of this name.
So the relation is kept when the rules register (`RuleSet.enrollAll_divides`), and when
their handlers are called (`Traversal.performAll_divides`); and the common run fails
exactly if one of the runs by themselves does.
-/
import TreeLint.Proofs.Run.Files
namespace TreeLint

/-! ### The session of all rules and that of one -/

namespace Reporter

/-- As far as the reports under one name are concerned, a reporter takes them like another one that
gets no others. -/
structure Restricts (name : String) (joint alone : Reporter) : Prop where
  tree_eq : joint.tree = alone.tree
  severities_eq : joint.severities = alone.severities
  joint_lenient : joint.strict = false
  alone_lenient : alone.strict = false
  joint_unlimited : joint.limit = none
  alone_unlimited : alone.limit = none
  findings_eq : joint.findings.filter (fun f => f.rule = name) = alone.findings
  seen_iff : ∀ key : FindingKey, key.rule = name → (key ∈ joint.seen ↔ key ∈ alone.seen)

/-- Outside strict mode every reporter refuses the same reports. -/
lemma refusal?_lenient {r₁ r₂ : Reporter} (h₁ : r₁.strict = false) (h₂ : r₂.strict = false)
    (report : Report) : r₁.refusal? report = r₂.refusal? report := by
  have hcount : ∀ arity, r₁.countFault? report arity = r₂.countFault? report arity := by
    intro arity
    simp only [countFault?, h₁, h₂]
  have hvocabulary : r₁.vocabularyFault? report = r₂.vocabularyFault? report := by
    rw [vocabularyFault?_of_lenient h₁, vocabularyFault?_of_lenient h₂]
  simp only [refusal?, hcount, hvocabulary]

namespace Restricts

variable [Machine] {name : String} {joint alone : Reporter} {report : Report}

/-- A report under the name is answered alike. -/
lemma report_fst (h : Restricts name joint alone) (hname : report.rule = name) :
    (joint.report report).1 = (alone.report report).1 := by
  have hkey := h.seen_iff report.key hname
  have hjoint : joint.isFull = false := by rw [isFull, h.joint_unlimited]
  have halone : alone.isFull = false := by rw [isFull, h.alone_unlimited]
  have hfinding : joint.finding report = alone.finding report := by
    simp only [finding, findingOf, h.tree_eq, h.severities_eq]
  unfold Reporter.report
  rw [refusal?_lenient h.joint_lenient h.alone_lenient]
  rcases alone.refusal? report with _ | f
  · simp only [record, hjoint, halone, List.contains_iff_mem, hkey, hfinding]
    split
    · rfl
    · simp only [Bool.false_eq_true, if_false]
      split <;> rfl
  · rfl

/-- A finding of a report has its name. -/
lemma rule_of_finding? {r : Reporter} {f : Finding}
    (hf : (Event.reported report (r.report report).1).finding? = some f) : f.rule = report.rule :=
  congrArg FindingKey.rule (r.key_of_finding? report hf)

/-- A report under the name keeps the relation. -/
lemma report_both (h : Restricts name joint alone) (hname : report.rule = name) :
    Restricts name (joint.report report).2 (alone.report report).2 := by
  obtain ⟨htree, hstrict, hseverities, hlimit, -⟩ := joint.settings_report report
  obtain ⟨htree', hstrict', hseverities', hlimit', -⟩ := alone.settings_report report
  refine ⟨by rw [htree, htree', h.tree_eq], by rw [hseverities, hseverities', h.severities_eq],
    by rw [hstrict, h.joint_lenient], by rw [hstrict', h.alone_lenient],
    by rw [hlimit, h.joint_unlimited], by rw [hlimit', h.alone_unlimited], ?_, fun key hkey => ?_⟩
  · rw [findings_report, findings_report, List.filter_append, h.findings_eq, ← h.report_fst hname]
    congr 1
    rw [List.filter_eq_self]
    intro f hf
    rw [decide_eq_true_iff, rule_of_finding? (Option.mem_toList.1 hf), hname]
  · rw [seen_report, seen_report, h.report_fst hname, List.mem_append, List.mem_append,
      h.seen_iff key hkey]

/-- A report of another rule keeps the relation. -/
lemma report_other (h : Restricts name joint alone) (hname : report.rule ≠ name) :
    Restricts name (joint.report report).2 alone := by
  obtain ⟨htree, hstrict, hseverities, hlimit, -⟩ := joint.settings_report report
  refine ⟨by rw [htree, h.tree_eq], by rw [hseverities, h.severities_eq],
    by rw [hstrict, h.joint_lenient], h.alone_lenient,
    by rw [hlimit, h.joint_unlimited], h.alone_unlimited, ?_, fun key hkey => ?_⟩
  · rw [findings_report, List.filter_append, h.findings_eq, List.filter_eq_nil_iff.2,
      List.append_nil]
    intro f hf
    rw [decide_eq_true_iff, rule_of_finding? (Option.mem_toList.1 hf)]
    exact hname
  · rw [seen_report, List.mem_append, h.seen_iff key hkey, or_iff_right_iff_imp]
    -- a key that this report adds is one of another rule
    intro hmem
    obtain ⟨f, hf, rfl⟩ : ∃ f,
        (Event.reported report (joint.report report).1).finding? = some f ∧ f.key = key := by
      simpa using hmem
    exact absurd ((rule_of_finding? hf).symm.trans hkey) hname

end Restricts

end Reporter

namespace Registry

/-- As far as the handlers under one name are concerned, a registry is like another one that gets no
others. -/
structure Restricts (name : String) (joint alone : Registry) : Prop where
  frozen_eq : joint.frozen = alone.frozen
  joint_allows : joint.isAllowed name = true
  alone_allows : alone.isAllowed name = true
  processors_eq : ∀ kind,
    (joint.processorsFor kind).filter (fun p => p.rule = name) = alone.processorsFor kind

namespace Restricts

variable {name owner : String} {joint alone after : Registry} {reg : Registration}

/-- The handlers of a registration are under its name. -/
lemma rule_of_processor? {kind : NodeKind} {p : Processor}
    (hp : p ∈ (reg.processor? owner kind).toList) : p.rule = reg.rule := by
  rw [Option.mem_toList, Registration.processor?] at hp
  split at hp
  · obtain ⟨handler, -, rfl⟩ := Option.map_eq_some_iff.1 hp
    rfl
  · cases hp

variable [Machine]

/-- A handler under another name keeps the relation. -/
lemma add_other (h : Restricts name joint alone) (hname : reg.rule ≠ name)
    (hadd : joint.add owner reg = .ok after) : Restricts name after alone := by
  have hgrows := growsBy_add hadd
  refine ⟨hgrows.frozen_eq.trans h.frozen_eq, ?_, h.alone_allows, fun kind => ?_⟩
  · rw [isAllowed, hgrows.allowed_eq]
    exact h.joint_allows
  · rw [hgrows.processorsFor_eq, List.filter_append, h.processors_eq, List.filter_eq_nil_iff.2,
      List.append_nil]
    intro p hp
    rw [decide_eq_true_iff, rule_of_processor? hp]
    exact hname

/-- A handler under the name is refused on both sides, with the same fault, or added on both. -/
lemma add_both (h : Restricts name joint alone) (hname : reg.rule = name) (owner : String) :
    (∃ f, joint.add owner reg = .error f ∧ alone.add owner reg = .error f) ∨
    ∃ r₁ r₂, joint.add owner reg = .ok r₁ ∧ alone.add owner reg = .ok r₂ ∧
      Restricts name r₁ r₂ := by
  have hjoint : joint.isAllowed reg.rule = true := by rw [hname]; exact h.joint_allows
  have halone : alone.isAllowed reg.rule = true := by rw [hname]; exact h.alone_allows
  -- once both add the handler, it is the last one on both sides
  have hboth : ∀ {r₁ r₂}, joint.add owner reg = .ok r₁ → alone.add owner reg = .ok r₂ →
      Restricts name r₁ r₂ := by
    intro r₁ r₂ h₁ h₂
    have hgrows₁ := growsBy_add h₁
    have hgrows₂ := growsBy_add h₂
    refine ⟨by rw [hgrows₁.frozen_eq, hgrows₂.frozen_eq, h.frozen_eq], ?_, ?_, fun kind => ?_⟩
    · rw [isAllowed, hgrows₁.allowed_eq]
      exact h.joint_allows
    · rw [isAllowed, hgrows₂.allowed_eq]
      exact h.alone_allows
    · rw [hgrows₁.processorsFor_eq, hgrows₂.processorsFor_eq, List.filter_append, h.processors_eq]
      congr 1
      rw [List.filter_eq_self]
      intro p hp
      rw [decide_eq_true_iff, rule_of_processor? hp, hname]
  -- what else is looked at is the same on both sides
  have hsame : (∃ f, joint.add owner reg = .error f ∧ alone.add owner reg = .error f) ∨
      ∃ r₁ r₂, joint.add owner reg = .ok r₁ ∧ alone.add owner reg = .ok r₂ := by
    simp only [add, h.frozen_eq, hjoint, halone, if_true]
    split
    · exact .inl ⟨_, rfl, rfl⟩
    · rcases kindOf? reg.kind with _ | kind
      · exact .inl ⟨_, rfl, rfl⟩
      · rcases reg.handler with _ | handler
        · exact .inl ⟨_, rfl, rfl⟩
        · exact .inr ⟨_, _, rfl, rfl⟩
  rcases hsame with herror | ⟨r₁, r₂, h₁, h₂⟩
  · exact .inl herror
  · exact .inr ⟨r₁, r₂, h₁, h₂, hboth h₁ h₂⟩

end Restricts

end Registry

/-- As far as one rule is concerned, a session answers it like another one in which it is alone. -/
structure Session.Restricts (h : Hierarchy) (name : String) (joint alone : Session) : Prop where
  reporter : joint.reporter.Restricts name alone.reporter
  registry : joint.registry.Restricts name alone.registry
  joint_remembers : joint.supertypes.Remembers h
  alone_remembers : alone.supertypes.Remembers h

/-- The session of several rules is made of the sessions of each of them. -/
structure Session.Divides (h : Hierarchy) (names : List String) (joint : Session)
    (alone : String → Session) : Prop where
  each : ∀ name ∈ names, joint.Restricts h name (alone name)
  findings_mem : ∀ f ∈ joint.reporter.findings, f.rule ∈ names
  duplicates_eq : joint.reporter.duplicates =
    (names.map fun name => (alone name).reporter.duplicates).sum

namespace Session

variable {h : Hierarchy} {names : List String} {name : String} {joint joint' a a' : Session}
  {alone : String → Session}

/-- What happens under one name, in the common session and in the one of this name, keeps the
account if it is no matter of the other names. -/
lemma Divides.update (hnodup : names.Nodup) (hname : name ∈ names)
    (hs : joint.Divides h names (Function.update alone name a))
    (hboth : joint'.Restricts h name a')
    (hothers : ∀ other s, other ≠ name → joint.Restricts h other s → joint'.Restricts h other s)
    (hfindings : ∀ f ∈ joint'.reporter.findings, f ∈ joint.reporter.findings ∨ f.rule = name)
    (more : Nat) (hjoint : joint'.reporter.duplicates = joint.reporter.duplicates + more)
    (halone : a'.reporter.duplicates = a.reporter.duplicates + more) :
    joint'.Divides h names (Function.update alone name a') where
  each other hother := by
    by_cases hne : other = name
    · subst hne
      rw [Function.update_self]
      exact hboth
    · have hold := hs.each other hother
      rw [Function.update_of_ne hne] at hold ⊢
      exact hothers other _ hne hold
  findings_mem f hf := by
    rcases hfindings f hf with hold | hnew
    · exact hs.findings_mem f hold
    · rw [hnew]
      exact hname
  duplicates_eq := by
    have hcount : ∀ s : Session, (fun n => (Function.update alone name s n).reporter.duplicates) =
        Function.update (fun n => (alone n).reporter.duplicates) name s.reporter.duplicates :=
      fun s => Function.comp_update (fun s : Session => s.reporter.duplicates) alone name s
    have hsum := sum_map_update hnodup hname
      (Function.update (fun n => (alone n).reporter.duplicates) name a.reporter.duplicates) more
    rw [Function.update_self, Function.update_idem, ← halone] at hsum
    rw [hcount, hsum, hjoint, hs.duplicates_eq, hcount]

/-- Freezing all registries keeps the account. -/
lemma Divides.freeze (hs : joint.Divides h names alone) :
    joint.freeze.Divides h names fun name => (alone name).freeze where
  each name hname := by
    obtain ⟨hreporter, hregistry, hjoint, halone⟩ := hs.each name hname
    exact ⟨hreporter, ⟨rfl, hregistry.joint_allows, hregistry.alone_allows,
      hregistry.processors_eq⟩, hjoint, halone⟩
  findings_mem := hs.findings_mem
  duplicates_eq := hs.duplicates_eq

variable [Machine]

/-- A rule does the same among others as alone. -/
lemma divides_simulation (hnodup : names.Nodup) (hname : name ∈ names) (alone : String → Session) :
    Session.Simulation (·.rule = name) (·.rule = name)
      (fun joint a => joint.Divides h names (Function.update alone name a)) := by
  have hown : ∀ {joint a : Session}, joint.Divides h names (Function.update alone name a) →
      joint.Restricts h name a := by
    intro joint a hs
    have heach := hs.each name hname
    rwa [Function.update_self] at heach
  refine ⟨fun hs hr => (hown hs).reporter.report_fst hr, ?_, ?_, ?_, ?_⟩
  · intro joint a r hs hr
    have h₀ := hown hs
    refine hs.update hnodup hname { h₀ with reporter := h₀.reporter.report_both hr } ?_ ?_ _
      (joint.reporter.duplicates_report r h₀.reporter.joint_unlimited) ?_
    · intro other s hne ho
      exact { ho with reporter := ho.reporter.report_other (by rw [hr]; exact hne.symm) }
    · intro f hf
      rw [afterReport, Reporter.findings_report, List.mem_append] at hf
      refine hf.imp_right fun hnew => ?_
      rw [Reporter.Restricts.rule_of_finding? (Option.mem_toList.1 hnew), hr]
    · rw [h₀.reporter.report_fst hr]
      exact a.reporter.duplicates_report r h₀.reporter.alone_unlimited
  · intro joint a reg owner hs hreg
    have h₀ := hown hs
    rcases h₀.registry.add_both hreg owner with herror | ⟨r₁, r₂, h₁, h₂, hafter⟩
    · exact .inl herror
    · refine .inr ⟨r₁, r₂, h₁, h₂, hs.update hnodup hname
        { h₀ with registry := hafter } ?_ (fun f hf => .inl hf) 0 rfl rfl⟩
      intro other s hne ho
      exact { ho with registry := ho.registry.add_other (by rw [hreg]; exact hne.symm) h₁ }
  · intro joint a type n library hs
    rw [(hown hs).joint_remembers.answer_eq, (hown hs).alone_remembers.answer_eq]
  · intro joint a type n library hs
    have h₀ := hown hs
    refine hs.update hnodup hname { h₀ with
      joint_remembers := h₀.joint_remembers.extendsClass _ _ _
      alone_remembers := h₀.alone_remembers.extendsClass _ _ _ } ?_ (fun f hf => .inl hf) 0 rfl rfl
    intro other s _ ho
    exact { ho with joint_remembers := ho.joint_remembers.extendsClass _ _ _ }

end Session

/-! ### Rules that register -/

/-- A rule that adds handlers and reports only under its own name, when it registers and when its
handlers are called. -/
def Rule.IsConfined (r : Rule) : Prop :=
  r.SetsUp fun name script => script.ReportsOnly (·.rule = name) ∧
    script.AddsOnly fun reg => reg.rule = name ∧ ∀ handler, reg.handler = some handler →
      ∀ context site, (handler context site).ReportsOnly (·.rule = name)

namespace RuleSet

variable [Machine] {h : Hierarchy} {names : List String} {alone : String → Session}
  {links : Links} {b : Building}

/-- A rule registers among others as it does alone. -/
lemma enroll_divides (context : Context) (hnodup : names.Nodup) {r : Rule} (hr : r.IsConfined)
    {name : String} (hname : r.name? = some name) (hmem : name ∈ names) (links : Links)
    (hb : b.session.Divides h names alone) :
    (enroll context links r b).1 = (enroll context links r ⟨alone name, []⟩).1 ∧
      (enroll context links r b).2.session.Divides h names
        (Function.update alone name (enroll context links r ⟨alone name, []⟩).2.session) := by
  have hsim := Session.divides_simulation (h := h) hnodup hmem alone
  refine enroll_alike (R := fun joint a => joint.Divides h names (Function.update alone name a))
    context ?_ ?_ ?_
  · intro joint a rule ids hs
    have h₀ := hs.each name hmem
    rw [Function.update_self] at h₀
    exact hs.update hnodup hmem { h₀ with reporter := { h₀.reporter with } }
      (fun other s _ ho => { ho with reporter := { ho.reporter with } }) (fun f hf => .inl hf) 0 rfl
      rfl
  · intro card setup hcard hsetup context
    obtain ⟨hreports, hadds⟩ := hr card setup hcard hsetup context
    have hcardName : card.name = name := by
      rw [r.name?_of_card hcard] at hname
      exact Option.some.inj hname
    rw [hcardName] at hreports hadds ⊢
    exact (setup context).run_simulates hsim name links hreports (hadds.mono fun _ hreg => hreg.1)
  · rwa [Function.update_eq_self]

/-- Rules register together exactly if each of them registers alone. -/
theorem enrollAll_divides (context : Context) (hnodup : names.Nodup) {rules : List Rule}
    (hconfined : ∀ r ∈ rules, r.IsConfined) (hnamed : ∀ r ∈ rules, ∃ name, r.name? = some name)
    (hdistinct : (rules.filterMap Rule.name?).Nodup) (hsub : rules.filterMap Rule.name? ⊆ names)
    (links : Links) (hb : b.session.Divides h names alone) :
    (∃ alone', (enrollAll context links rules b).1 = .ok () ∧
      (enrollAll context links rules b).2.session.Divides h names alone' ∧
      (∀ r ∈ rules, ∀ name, r.name? = some name →
        (enroll context links r ⟨alone name, []⟩).1 = .ok () ∧
          (enroll context links r ⟨alone name, []⟩).2.session = alone' name) ∧
      ∀ name ∉ rules.filterMap Rule.name?, alone' name = alone name) ∨
    ∃ f, (enrollAll context links rules b).1 = .error f ∧
      ∃ r ∈ rules, ∃ name, r.name? = some name ∧
        (enroll context links r ⟨alone name, []⟩).1 = .error f := by
  induction rules generalizing b alone with
  | nil => exact .inl ⟨alone, rfl, hb, by simp, fun _ _ => rfl⟩
  | cons r rest ih =>
    obtain ⟨hr, hconfinedRest⟩ := List.forall_mem_cons.1 hconfined
    obtain ⟨⟨name, hname⟩, hnamedRest⟩ := List.forall_mem_cons.1 hnamed
    rw [List.filterMap_cons_some hname, List.nodup_cons] at hdistinct
    rw [List.filterMap_cons_some hname, List.cons_subset] at hsub
    obtain ⟨hend, hafter⟩ := enroll_divides context hnodup hr hname hsub.1 links hb
    -- the sessions of the other rules are still as they were
    have hothers : ∀ r' ∈ rest, ∀ name', r'.name? = some name' → name' ≠ name := by
      rintro r' hr' name' hname' rfl
      exact hdistinct.1 (List.mem_filterMap.2 ⟨r', hr', hname'⟩)
    rcases hfirst : (enroll context links r b).1 with f | _
    · refine .inr ⟨f, ?_, r, List.mem_cons_self, name, hname, hend.symm.trans hfirst⟩
      rw [enrollAll]
      rcases heq : enroll context links r b with ⟨ended, b'⟩
      rw [heq] at hfirst
      simp only at hfirst
      subst hfirst
      rfl
    · rw [enrollAll_cons_of_ok hfirst]
      rcases ih hconfinedRest hnamedRest hdistinct.2 hsub.2 hafter with
        ⟨alone', hok, hdivides, heach, houtside⟩ | ⟨f, herror, r', hr', name', hname', hf⟩
      · refine .inl ⟨alone', hok, hdivides, List.forall_mem_cons.2 ⟨?_, ?_⟩, ?_⟩
        · intro name' hname'
          obtain rfl : name = name' := Option.some.inj (hname.symm.trans hname')
          rw [houtside name hdistinct.1, Function.update_self]
          exact ⟨hend.symm.trans hfirst, rfl⟩
        · intro r' hr' name' hname'
          have hsame := heach r' hr' name' hname'
          rwa [Function.update_of_ne (hothers r' hr' name' hname')] at hsame
        · intro name' hname'
          rw [List.filterMap_cons_some hname, List.mem_cons, not_or] at hname'
          rw [houtside name' hname'.2, Function.update_of_ne hname'.1]
      · rw [Function.update_of_ne (hothers r' hr' name' hname')] at hf
        exact .inr ⟨f, herror, r', List.mem_cons_of_mem _ hr', name', hname', hf⟩

end RuleSet

/-! ### Handlers that are called -/

namespace Traversal

/-- The traversal with the handlers of several rules is made of the traversals with those of
each. -/
structure Divides (h : Hierarchy) (names : List String) (t : Traversal)
    (alone : String → Traversal) : Prop where
  session : t.session.Divides h names fun name => (alone name).session
  failures_eq : ∀ name ∈ names,
    t.failures.filter (fun f => f.rule = name) = (alone name).failures
  calls_eq : ∀ name ∈ names, t.calls.filter (fun c => c.1 = name) = (alone name).calls

/-- Counting a call under a name changes nothing under the others. -/
lemma filter_countCall (name called : String) (counts : List (String × Nat)) :
    (countCall called counts).filter (fun c => c.1 = name) =
      if called = name then countCall called (counts.filter (fun c => c.1 = name))
      else counts.filter (fun c => c.1 = name) := by
  induction counts with
  | nil => by_cases hname : called = name <;> simp [countCall, hname]
  | cons entry rest ih =>
    obtain ⟨key, n⟩ := entry
    by_cases hkey : key = called
    · by_cases hname : called = name <;> simp [countCall, hkey, hname]
    · rcases eq_or_ne called name with rfl | hname
      · simp [countCall, hkey, ih]
      · rcases eq_or_ne key name with rfl | hother
        · simp [countCall, hkey, ih, hname]
        · simp [countCall, hkey, ih, hname, hother]

variable [Machine] {h : Hierarchy} {names : List String} {strict : Bool} {context : Context}
  {links : Links} {t : Traversal} {alone : String → Traversal}

/-- A call of a handler of a rule is made in the common traversal as in the one of this rule. -/
lemma invoke_divides (strict : Bool) (hnodup : names.Nodup) (c : Call)
    (hmem : c.processor.rule ∈ names)
    (hscript : (c.script context links).ReportsOnly (·.rule = c.processor.rule))
    (hfrozen : t.session.registry.frozen = true) (ht : t.Divides h names alone) :
    (invoke strict context links c.node c.processor t).1 =
        (invoke strict context links c.node c.processor (alone c.processor.rule)).1 ∧
      (invoke strict context links c.node c.processor t).2.Divides h names
        (Function.update alone c.processor.rule
          (invoke strict context links c.node c.processor (alone c.processor.rule)).2) := by
  set name := c.processor.rule with hrule
  have hsim := (Session.divides_simulation (h := h) hnodup hmem
    fun name => (alone name).session).frozen
  have hown := ht.session.each name hmem
  obtain ⟨hend, hafter, -⟩ := (c.script context links).run_simulates hsim c.owner links hscript
    ((c.script context links).addsOnly_of_forall fun _ => trivial) t.session (alone name).session
    ⟨by rw [Function.update_eq_self]; exact ht.session, hfrozen,
      hown.registry.frozen_eq.symm.trans hfrozen⟩
  simp only [Call.script, Call.owner] at hend hafter
  obtain ⟨ending, failures, warnings, hfailures, hnote⟩ := exists_noteFault_eq strict context.tree
    c.processor c.node ((c.processor.handler context (links.site c.node)).run c.processor.owner
      links (alone name).session).1
  simp only [invoke, hend, hnote, true_and]
  refine ⟨?_, fun other hother => ?_, fun other hother => ?_⟩
  · convert hafter using 1
    exact Function.comp_update (fun t : Traversal => t.session) alone name _
  · by_cases hne : other = name
    · subst hne
      rw [Function.update_self, List.filter_append, ht.failures_eq _ hmem,
        List.filter_eq_self.2 fun f hf => by rw [decide_eq_true_iff]; exact hfailures f hf]
    · rw [Function.update_of_ne hne, List.filter_append, ht.failures_eq _ hother,
        List.filter_eq_nil_iff.2 fun f hf => by
          rw [decide_eq_true_iff, hfailures f hf]; exact fun heq => hne heq.symm,
        List.append_nil]
  · rw [filter_countCall]
    by_cases hne : other = name
    · subst hne
      rw [Function.update_self, ← hrule, if_pos rfl, ht.calls_eq _ hmem]
    · rw [Function.update_of_ne hne, ← hrule, if_neg fun heq => hne heq.symm,
        ht.calls_eq _ hother]

/-- The calls of several rules end exactly if those of one of them do, and otherwise leave what the
calls of each leave. -/
theorem performAll_divides (strict : Bool) (context : Context) (links : Links)
    (hnodup : names.Nodup) (calls : List Call)
    (hcalls : ∀ c ∈ calls, c.processor.rule ∈ names ∧
      (c.script context links).ReportsOnly (·.rule = c.processor.rule))
    (hfrozen : t.session.registry.frozen = true) (ht : t.Divides h names alone) :
    (∃ t' alone', performAll strict context links calls t = (none, t') ∧
      t'.Divides h names alone' ∧
      ∀ name ∈ names, performAll strict context links
        (calls.filter fun c => c.processor.rule = name) (alone name) = (none, alone' name)) ∨
    ∃ f t', performAll strict context links calls t = (some f, t') ∧
      ∃ name ∈ names, ∃ t'', performAll strict context links
        (calls.filter fun c => c.processor.rule = name) (alone name) = (some f, t'') := by
  induction calls generalizing t alone with
  | nil => exact .inl ⟨t, alone, rfl, ht, fun _ _ => rfl⟩
  | cons c rest ih =>
    obtain ⟨⟨hmem, hscript⟩, hrest⟩ := List.forall_mem_cons.1 hcalls
    obtain ⟨hend, hafter⟩ := invoke_divides strict hnodup c hmem hscript hfrozen ht
    have hfrozen' : (invoke strict context links c.node c.processor t).2.session.registry.frozen =
        true := by rw [registry_invoke hfrozen]; exact hfrozen
    rcases hjoint : invoke strict context links c.node c.processor t with ⟨ended, between⟩
    rcases halone : invoke strict context links c.node c.processor (alone c.processor.rule) with
      ⟨ended', own⟩
    rw [hjoint, halone] at hend hafter
    rw [hjoint] at hfrozen'
    simp only at hend hafter hfrozen'
    subst hend
    -- for a rule by itself, the first call is made if it is its own
    have hown : ∀ result, performAll strict context links (rest.filter fun c' =>
        c'.processor.rule = c.processor.rule) own = result → ended = none →
        performAll strict context links ((c :: rest).filter fun c' =>
          c'.processor.rule = c.processor.rule) (alone c.processor.rule) = result := by
      rintro result hresult rfl
      rw [List.filter_cons_of_pos (by simp), performAll, halone]
      exact hresult
    have hother : ∀ name, name ≠ c.processor.rule → (c :: rest).filter (fun c' =>
        c'.processor.rule = name) = rest.filter fun c' => c'.processor.rule = name :=
      fun name hne => List.filter_cons_of_neg (by simpa using fun h => hne h.symm)
    rcases ended with _ | f
    · simp only [performAll, hjoint]
      rcases ih hrest hfrozen' hafter with
        ⟨t', alone', hnone, hdivides, heach⟩ | ⟨f, t', hsome, name, hname, t'', hf⟩
      · refine .inl ⟨t', alone', hnone, hdivides, fun name hname => ?_⟩
        have hsame := heach name hname
        by_cases hne : name = c.processor.rule
        · subst hne
          rw [Function.update_self] at hsame
          exact hown _ hsame rfl
        · rw [Function.update_of_ne hne] at hsame
          rw [hother name hne, hsame]
      · refine .inr ⟨f, t', hsome, name, hname, t'', ?_⟩
        by_cases hne : name = c.processor.rule
        · subst hne
          rw [Function.update_self] at hf
          exact hown _ hf rfl
        · rw [Function.update_of_ne hne] at hf
          rw [hother name hne, hf]
    · refine .inr ⟨f, between, by simp only [performAll, hjoint], c.processor.rule, hmem, own, ?_⟩
      rw [List.filter_cons_of_pos (by simp), performAll, halone]

end Traversal

end TreeLint
