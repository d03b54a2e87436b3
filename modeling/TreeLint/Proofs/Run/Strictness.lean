/-
Strict mode is an early stop.

Both modes make the same calls in the same order, and go on alike until something
happens that strict mode does not allow.  The first such event of the run outside
strict mode ends the strict run with its fault; if there is none, both come to the
same end: `Analysis.analyzeTrees_strict`.  The run outside strict mode may be ended too,
by a handler that fails with a fault that cannot be told.

Nothing of this holds of a rule that registers and takes no notice of the fault of a
report: strict mode refuses the report and goes on.
-/
import TreeLint.Proofs.Run.Files
import TreeLint.Proofs.Run.Offence
namespace TreeLint

/-! ### One traversal in both modes -/

namespace Traversal

variable [Machine] {rules : List Rule} {context : Context} {links : Links}

/-- The same traversal in strict mode. -/
def strictly (t : Traversal) : Traversal := { t with session := t.session.strictly }

/-- What happens in some calls outside strict mode, step by step, up to the call that ends the
traversal. -/
def eventsOf (context : Context) (links : Links) : List Call → Session → List Event
  | [], _ => []
  | c :: rest, s =>
    (recordOf context links c s).events ++
      match (recordOf context links c s).ending? false with
      | none => eventsOf context links rest ((c.script context links).run c.owner links s).2
      | some _ => []

lemma eventsOf_singleton (c : Call) (s : Session) :
    eventsOf context links [c] s = (recordOf context links c s).events := by
  rw [eventsOf]
  cases (recordOf context links c s).ending? false <;> exact List.append_nil _

/-- A script that fails does so in its last event. -/
lemma failed_mem_events {script : Script} {owner : String} {s : Session} {f : Fault}
    (h : (script.run owner links s).1 = some f) : .failed f ∈ script.events owner links s := by
  induction script generalizing s with
  | done => cases h
  | fail g =>
    cases h
    exact List.mem_singleton_self _
  | report r next ih => exact List.mem_cons_of_mem _ (ih _ h)
  | register kind rule callable handler next _ ih =>
    rcases hadd : s.registry.add owner ⟨kind, rule, if callable then some handler else none⟩
      with g | registry <;>
      simp only [Script.run, Script.events, hadd] at h ⊢ <;>
      exact List.mem_cons_of_mem _ (ih _ h)
  | extendsClass type name library next ih => exact ih _ h
  | locate node next ih => exact ih _ h

/-- Outside strict mode a traversal is ended by a fault that cannot be told. -/
lemma exists_failed_of_ended (hstarts : context.tree.lineStarts.size ≠ 0) (calls : List Call)
    {t : Traversal} {g : Fault} (h : (performAll false context links calls t).1 = some g) :
    ∃ f why, .failed f ∈ eventsOf context links calls t.session ∧ f.untold? = some why ∧
      g = .text why := by
  induction calls generalizing t with
  | nil => cases h
  | cons c rest ih =>
    rw [eventsOf]
    rcases hending : (recordOf context links c t.session).ending? false with _ | g'
    · obtain ⟨warnings, hinvoke⟩ := invoke_of_ending?_eq_none hstarts hending
      rw [performAll, hinvoke] at h
      obtain ⟨f, why, hf, hwhy, hg⟩ := ih h
      exact ⟨f, why, List.mem_append_right _ hf, hwhy, hg⟩
    · obtain ⟨warnings, hinvoke⟩ := invoke_of_ending?_eq_some hstarts hending
      rw [performAll, hinvoke] at h
      cases h
      obtain ⟨f, why, hf, hwhy, hg⟩ := Record.ending?_lenient_eq_some_iff.1 hending
      exact ⟨f, why, List.mem_append_left _ (failed_mem_events hf), hwhy, hg⟩

/-- What is noted of a call in strict mode is what is noted outside, unless it fails with a
programming fault. -/
lemma noteFault_strictly (tree : Tree) (p : Processor) (n : Node) (t : Traversal)
    {ended : Option Fault} (hplain : ∀ f, ended = some f → f.isProgramming = false) :
    noteFault true tree p n t.strictly ended =
      ((noteFault false tree p n t ended).1, (noteFault false tree p n t ended).2.strictly) := by
  have hsame : noteFault true tree p n t ended = noteFault false tree p n t ended := by
    rcases ended with _ | f
    · rfl
    · simp only [noteFault, hplain f rfl, Bool.and_false]
  obtain ⟨ending, failures, warnings, -, hnote⟩ := exists_noteFault_eq true tree p n ended
  rw [← hsame, hnote, hnote]
  rfl

/-- In strict mode a call ends the traversal with the first of its events that is not allowed; if
there is none, it is made alike in both modes. -/
lemma invoke_strictly {c : Call} (hthrough : (c.script context links).LetsThrough) {t : Traversal}
    (ht : t.session.IsLenient rules) :
    (∀ f, (recordOf context links c t.session).events.findSome? (Event.offence? rules) = some f →
      (invoke true context links c.node c.processor t.strictly).1 = some f) ∧
    ((recordOf context links c t.session).events.findSome? (Event.offence? rules) = none →
      invoke true context links c.node c.processor t.strictly =
        ((invoke false context links c.node c.processor t).1,
          (invoke false context links c.node c.processor t).2.strictly)) := by
  obtain ⟨hoffends, hclean⟩ :=
    Script.run_strictly c.owner links (c.script context links) hthrough ht
  constructor
  · intro f hf
    have hended : ((c.processor.handler context (links.site c.node)).run c.processor.owner links
        t.session.strictly).1 = some f := hoffends f hf
    have hprogramming : f.isProgramming = true := by
      obtain ⟨e, -, he⟩ := List.exists_of_findSome?_eq_some hf
      exact Event.isProgramming_of_offence? he
    simp only [invoke, strictly, hended, noteFault, hprogramming, Bool.and_self, if_true]
  · intro hnone
    obtain ⟨hrun, hplain⟩ := hclean hnone
    replace hrun : (c.processor.handler context (links.site c.node)).run c.processor.owner links
        t.strictly.session =
        (((c.processor.handler context (links.site c.node)).run c.processor.owner links
            t.session).1,
          ((c.processor.handler context (links.site c.node)).run c.processor.owner links
            t.session).2.strictly) := hrun
    simp only [invoke, hrun]
    exact noteFault_strictly context.tree c.processor c.node { t with
      session := ((c.script context links).run c.owner links t.session).2
      calls := countCall c.processor.rule t.calls
      trace := t.trace ++ [c.invocation] } hplain

/-- In strict mode calls end the traversal with the first event that is not allowed; if there is
none, they are made alike in both modes. -/
theorem performAll_strictly (hstarts : context.tree.lineStarts.size ≠ 0) (calls : List Call)
    (hthrough : ∀ c ∈ calls, (c.script context links).LetsThrough) {t : Traversal}
    (ht : t.session.IsLenient rules) :
    (∀ f, (eventsOf context links calls t.session).findSome? (Event.offence? rules) = some f →
      (performAll true context links calls t.strictly).1 = some f) ∧
    ((eventsOf context links calls t.session).findSome? (Event.offence? rules) = none →
      performAll true context links calls t.strictly =
        ((performAll false context links calls t).1,
          (performAll false context links calls t).2.strictly)) := by
  induction calls generalizing t with
  | nil => exact ⟨by rintro _ ⟨⟩, fun _ => rfl⟩
  | cons c rest ih =>
    obtain ⟨hc, hrest⟩ := List.forall_mem_cons.1 hthrough
    obtain ⟨hoffends, hclean⟩ := invoke_strictly hc ht
    rw [eventsOf, List.findSome?_append]
    rcases hfirst : (recordOf context links c t.session).events.findSome? (Event.offence? rules)
      with _ | g
    -- everything in the first call is allowed: it is made alike in both modes
    · rw [Option.none_or]
      have hinvoke := hclean hfirst
      have hafter :
          (invoke false context links c.node c.processor t).2.session.IsLenient rules := by
        rw [session_invoke]
        exact RuleSet.run_preserves_of_forall (Session.isLenient_invariant rules) _ _ _ ht
      have hsession := session_invoke false context links c t
      have hended : (invoke false context links c.node c.processor t).1 =
          (recordOf context links c t.session).ending? false := by
        rcases hending : (recordOf context links c t.session).ending? false with _ | g'
        · obtain ⟨warnings, hstep⟩ := invoke_of_ending?_eq_none hstarts hending
          rw [hstep]
        · obtain ⟨warnings, hstep⟩ := invoke_of_ending?_eq_some hstarts hending
          rw [hstep]
      rcases hstep : invoke false context links c.node c.processor t with ⟨ended, t'⟩
      rw [hstep] at hinvoke hafter hsession hended
      simp only at hinvoke hafter hsession hended
      simp only [performAll, hinvoke, hstep, ← hended, ← hsession]
      cases ended with
      | none => exact ih hrest hafter
      | some g' => exact ⟨by rintro _ ⟨⟩, fun _ => rfl⟩
    -- the first call ends the strict traversal
    · have hended := hoffends g hfirst
      refine ⟨fun f hf => ?_, by rintro ⟨⟩⟩
      cases hf
      rw [performAll]
      rcases hinvoke : invoke true context links c.node c.processor t.strictly with ⟨_ | g', t'⟩
      · rw [hinvoke] at hended
        cases hended
      · rw [hinvoke] at hended
        exact hended

end Traversal

/-! ### One file in both modes -/

/-- A configuration with strict mode on or off. -/
def Config.withStrict (config : Config) (strict : Bool) : Config :=
  { config with strict := .bool strict }

namespace Analysis

variable [Machine] {rules : List Rule} {config : Config} {tree : Tree} {links : Links}
  {m : Supertypes} {h : Hierarchy}

/-- What happens in the calls on a file outside strict mode, step by step. -/
def eventsIn (rules : List Rule) (config : Config) (links : Links) (tree : Tree) (m : Supertypes) :
    List Event :=
  Traversal.eventsOf (contextFor config tree) links (plan rules config links tree m)
    (built rules config links tree m)

/-- Rules that register in strict mode, and let the faults of their reports through, register alike
in both modes. -/
lemma built_strictly (hthrough : ∀ r ∈ rules, r.LetsThrough)
    (hbuild : (building rules (config.withStrict true) links tree m).1 = .ok ()) :
    (building rules (config.withStrict false) links tree m).1 = .ok () ∧
      (built rules (config.withStrict false) links tree m).reporter.strict = false ∧
      built rules (config.withStrict true) links tree m =
        (built rules (config.withStrict false) links tree m).strictly := by
  have hok := RuleSet.buildRegistry_of_ok.1.1 hbuild
  have hlenient : (RuleSet.opening rules (reporterFor (config.withStrict false) tree)
      m).session.reporter.strict = false := rfl
  obtain ⟨hok', hlenient', hsession⟩ := RuleSet.enrollAll_strictly [] hthrough hlenient hok
  have hbuild' : (building rules (config.withStrict false) links tree m).1 = .ok () :=
    RuleSet.buildRegistry_of_ok.1.2 hok'
  refine ⟨hbuild', ?_, ?_⟩
  · rw [built, building, RuleSet.buildRegistry_of_ok.2 hbuild']
    exact hlenient'
  · rw [built, building, RuleSet.buildRegistry_of_ok.2 hbuild, built, building,
      RuleSet.buildRegistry_of_ok.2 hbuild']
    exact congrArg Session.freeze hsession

/-- Outside strict mode only a fault that cannot be told ends the analysis of a file. -/
lemma exists_failed_of_analyzeFile (hstarts : tree.lineStarts.size ≠ 0)
    (hlenient : config.strict.isTruthy = false)
    (hbuild : (building rules config links tree m).1 = .ok ()) {g : Fault}
    (hg : (analyzeFile rules config links tree m).result = .error g) :
    ∃ f why, .failed f ∈ eventsIn rules config links tree m ∧ f.untold? = some why ∧
      g = .text why := by
  rcases htraversed : traversed rules config links tree m with ⟨_ | f, t⟩
  · rw [(analyzeFile_of_returned hbuild htraversed).1] at hg
    cases hg
  · rw [(analyzeFile_of_ended hbuild htraversed).1] at hg
    cases hg
    rw [traversed, hlenient] at htraversed
    have hstarts' : (contextFor config tree).tree.lineStarts.size ≠ 0 := hstarts
    exact Traversal.exists_failed_of_ended hstarts' _ (congrArg Prod.fst htraversed)

/-- In strict mode the first event that is not allowed ends the analysis of a file; if there is
none, it comes to the same end in both modes. -/
theorem analyzeFile_strictly (hstarts : tree.lineStarts.size ≠ 0) (hsound : RuleSet.Sound rules)
    (hthrough : ∀ r ∈ rules, r.LetsThrough)
    (hbuild : (building rules (config.withStrict true) links tree m).1 = .ok ()) :
    let first := (eventsIn rules (config.withStrict false) links tree m).findSome?
      (Event.offence? rules)
    (∀ f, first = some f →
      (analyzeFile rules (config.withStrict true) links tree m).result = .error f) ∧
    (first = none → (analyzeFile rules (config.withStrict true) links tree m).result =
      (analyzeFile rules (config.withStrict false) links tree m).result) := by
  obtain ⟨hbuild', hlenient, hbuilt⟩ := built_strictly hthrough hbuild
  have hsession : (built rules (config.withStrict false) links tree m).IsLenient rules := by
    refine ⟨hlenient, fun name ids => ?_, frozen_built hbuild'⟩
    rw [declared_built hbuild']
    exact hsound.lookup_vocabulary name ids
  have hcalls : ∀ c ∈ plan rules (config.withStrict false) links tree m,
      (c.script (contextFor config tree) links).LetsThrough := by
    intro c hc
    exact handlers_of_mem_plan (Q := fun _ script => script.LetsThrough)
      (fun r hr => (hthrough r hr).mono fun _ _ hscript => hscript.2) hbuild' c hc _
  have hstarts' : (contextFor config tree).tree.lineStarts.size ≠ 0 := hstarts
  obtain ⟨hoffends, hclean⟩ := Traversal.performAll_strictly hstarts' _ hcalls
    (t := { session := built rules (config.withStrict false) links tree m }) hsession
  have hplan : plan rules (config.withStrict true) links tree m =
      plan rules (config.withStrict false) links tree m := by
    rw [plan, hbuilt]
    rfl
  have hstrict : traversed rules (config.withStrict true) links tree m =
      Traversal.performAll true (contextFor config tree) links
        (plan rules (config.withStrict false) links tree m)
        (Traversal.strictly
          { session := built rules (config.withStrict false) links tree m }) := by
    rw [traversed, hplan, hbuilt]
    rfl
  intro first
  refine ⟨fun f hf => ?_, fun hnone => ?_⟩
  · have hended := hoffends f hf
    rw [← hstrict] at hended
    rcases htraversed : traversed rules (config.withStrict true) links tree m with ⟨ended, t⟩
    rw [htraversed] at hended
    simp only at hended
    subst hended
    exact (analyzeFile_of_ended hbuild htraversed).1
  · have hsame := hclean hnone
    rw [← hstrict] at hsame
    rcases htraversed : traversed rules (config.withStrict false) links tree m with ⟨ended, t⟩
    have hperform : Traversal.performAll false (contextFor config tree) links
        (plan rules (config.withStrict false) links tree m)
        { session := built rules (config.withStrict false) links tree m } = (ended, t) := htraversed
    rw [hperform] at hsame
    cases ended with
    | none =>
      rw [(analyzeFile_of_returned hbuild hsame).1, (analyzeFile_of_returned hbuild' htraversed).1]
      rfl
    | some f =>
      rw [(analyzeFile_of_ended hbuild hsame).1, (analyzeFile_of_ended hbuild' htraversed).1]

/-! ### Several files in both modes -/

/-- What happens in the calls on files that are analysed one after the other outside strict mode,
step by step, up to the file that fails. -/
def eventsFrom (rules : List Rule) (config : Config) (links : Links) :
    List Tree → Supertypes → List Event
  | [], _ => []
  | tree :: rest, m =>
    eventsIn rules config links tree m ++
      match (analyzeFile rules config links tree m).result with
      | .ok r => eventsFrom rules config links rest r.2
      | .error _ => []

lemma eventsFrom_singleton :
    eventsFrom rules config links [tree] m = eventsIn rules config links tree m := by
  rw [eventsFrom]
  cases (analyzeFile rules config links tree m).result <;> exact List.append_nil _

/-- What happens in the calls of an analysis outside strict mode, step by step: nothing if the rules
are not accepted. -/
def lenientEvents (rules : List Rule) (config : Config) (h : Hierarchy) (links : Links)
    (trees : List Tree) : List Event :=
  match RuleSet.validate rules with
  | .error _ => []
  | .ok () => eventsFrom rules (config.withStrict false) links trees ⟨h, []⟩

/-- Outside strict mode only a fault that cannot be told ends the analysis of files. -/
lemma exists_failed_of_analyzeFiles (trees : List Tree)
    (hstarts : ∀ tree ∈ trees, tree.lineStarts.size ≠ 0)
    (hlenient : config.strict.isTruthy = false)
    (hbuild : ∀ tree ∈ trees, (building rules config links tree ⟨h, []⟩).1 = .ok ())
    (hm : m.Remembers h) {g : Fault}
    (hg : (analyzeFiles rules config links trees m).result = .error g) :
    ∃ f why, .failed f ∈ eventsFrom rules config links trees m ∧ f.untold? = some why ∧
      g = .text why := by
  induction trees generalizing m with
  | nil => cases hg
  | cons tree rest ih =>
    rw [List.forall_mem_cons] at hstarts hbuild
    have hbuilt := (building_remembers rules config links tree hm (.empty h)).trans hbuild.1
    rw [analyzeFiles] at hg
    rw [eventsFrom]
    rcases hfile : (analyzeFile rules config links tree m).result with f | r
    · rw [Outcome.bind_of_error hfile] at hg
      cases hg
      obtain ⟨f, why, hf, hwhy⟩ :=
        exists_failed_of_analyzeFile hstarts.1 hlenient hbuilt hfile
      exact ⟨f, why, List.mem_append_left _ hf, hwhy⟩
    · rw [Outcome.bind_of_ok hfile] at hg
      rcases hfiles : (analyzeFiles rules config links rest r.2).result with f | results
      · simp only [Outcome.bind_of_error hfiles] at hg
        cases hg
        obtain ⟨f, why, hf, hwhy⟩ :=
          ih hstarts.2 hbuild.2 (remembers_of_result hm hfile) hfiles
        exact ⟨f, why, List.mem_append_right _ hf, hwhy⟩
      · simp only [Outcome.bind_of_ok hfiles] at hg
        cases hg

/-- In strict mode the first event that is not allowed ends the analysis of files; if there is none,
it comes to the same end in both modes. -/
theorem analyzeFiles_strictly (config : Config) (hsound : RuleSet.Sound rules)
    (hthrough : ∀ r ∈ rules, r.LetsThrough) (links : Links) (trees : List Tree)
    (hstarts : ∀ tree ∈ trees, tree.lineStarts.size ≠ 0)
    (hbuild : ∀ tree ∈ trees,
      (building rules (config.withStrict true) links tree ⟨h, []⟩).1 = .ok ())
    (hm : m.Remembers h) :
    let first := (eventsFrom rules (config.withStrict false) links trees m).findSome?
      (Event.offence? rules)
    (∀ f, first = some f →
      (analyzeFiles rules (config.withStrict true) links trees m).result = .error f) ∧
    (first = none → (analyzeFiles rules (config.withStrict true) links trees m).result =
      (analyzeFiles rules (config.withStrict false) links trees m).result) := by
  induction trees generalizing m with
  | nil => exact ⟨by rintro _ ⟨⟩, fun _ => rfl⟩
  | cons tree rest ih =>
    rw [List.forall_mem_cons] at hstarts hbuild
    have hbuilt : (building rules (config.withStrict true) links tree m).1 = .ok () :=
      (building_remembers rules _ links tree hm (.empty h)).trans hbuild.1
    obtain ⟨hoffends, hclean⟩ := analyzeFile_strictly hstarts.1 hsound hthrough hbuilt
    simp only [eventsFrom, analyzeFiles, List.findSome?_append]
    rcases hown : (eventsIn rules (config.withStrict false) links tree m).findSome?
      (Event.offence? rules) with _ | g
    -- the first file comes to the same end in both modes
    · have hsame := hclean hown
      rw [Option.none_or]
      rcases hfile : (analyzeFile rules (config.withStrict false) links tree m).result with g | r
      · rw [hfile] at hsame
        rw [Outcome.bind_of_error hsame, Outcome.bind_of_error hfile]
        exact ⟨by rintro _ ⟨⟩, fun _ => rfl⟩
      · rw [hfile] at hsame
        obtain ⟨hoffends', hclean'⟩ := ih hstarts.2 hbuild.2 (remembers_of_result hm hfile)
        rw [Outcome.bind_of_ok hsame, Outcome.bind_of_ok hfile]
        simp only
        refine ⟨fun f hf => ?_, fun hnone => ?_⟩
        · rw [Outcome.bind_of_error (hoffends' f hf)]
        · have hrest := hclean' hnone
          rcases hfiles : (analyzeFiles rules (config.withStrict false) links rest r.2).result
            with g | results <;> rw [hfiles] at hrest
          · rw [Outcome.bind_of_error hrest, Outcome.bind_of_error hfiles]
          · rw [Outcome.bind_of_ok hrest, Outcome.bind_of_ok hfiles]
    -- the first file ends the strict analysis
    · rw [Option.some_or, Outcome.bind_of_error (hoffends g hown)]
      exact ⟨fun f hf => congrArg Except.error (Option.some.inj hf), by rintro ⟨⟩⟩

/-- **Strict mode is an early stop.**  Let rules let through the faults of their reports, and
register without a fault in strict mode, for files with line starts.  If an event of the analysis
outside strict mode is not allowed in strict mode, the strict analysis fails with the fault of the
first such event; if none is, both modes come to the same end.

A fault that ends the analysis in strict mode is the one with which the rules are refused, or a
programming fault, or the reason why a fault of a handler cannot be told; outside strict mode it is
no programming fault. -/
theorem analyzeTrees_strict (rules : List Rule) (config : Config) (h : Hierarchy) (links : Links)
    (trees : List Tree) (hstarts : ∀ tree ∈ trees, tree.lineStarts.size ≠ 0)
    (hbuild : ∀ tree ∈ trees,
      (building rules (config.withStrict true) links tree ⟨h, []⟩).1 = .ok ())
    (hthrough : ∀ r ∈ rules, r.LetsThrough) :
    let strictly := (analyzeTrees rules (config.withStrict true) h links trees).result
    let leniently := (analyzeTrees rules (config.withStrict false) h links trees).result
    let events := lenientEvents rules config h links trees
    let first := events.findSome? (Event.offence? rules)
    (∀ f, first = some f → f.isProgramming = true ∧ strictly = .error f) ∧
    (first = none → strictly = leniently) ∧
    ∀ g, leniently = .error g → RuleSet.validate rules = .error g ∨
      ∃ f why, .failed f ∈ events ∧ f.untold? = some why ∧ g = .text why := by
  intro strictly leniently events first
  rcases hvalid : RuleSet.validate rules with g | _
  · have hstrictly : strictly = .error g := by simp only [strictly, analyzeTrees, hvalid]
    have hleniently : leniently = .error g := by simp only [leniently, analyzeTrees, hvalid]
    have hfirst : first = none := by
      simp only [first, events, lenientEvents, hvalid, List.findSome?_nil]
    rw [hstrictly, hleniently, hfirst]
    exact ⟨by rintro _ ⟨⟩, fun _ => rfl, fun f hf => .inl (by rw [Except.error.inj hf])⟩
  · have hsound := (RuleSet.validate_eq_ok_iff rules).1 hvalid
    obtain ⟨hoffends, hclean⟩ := analyzeFiles_strictly config hsound hthrough links trees hstarts
      hbuild (.empty h)
    have hstrictly : strictly =
        (analyzeFiles rules (config.withStrict true) links trees ⟨h, []⟩).result := by
      simp only [strictly, analyzeTrees, hvalid]
    have hleniently : leniently =
        (analyzeFiles rules (config.withStrict false) links trees ⟨h, []⟩).result := by
      simp only [leniently, analyzeTrees, hvalid]
    have hevents : events = eventsFrom rules (config.withStrict false) links trees ⟨h, []⟩ := by
      simp only [events, lenientEvents, hvalid]
    have hlenient : (config.withStrict false).strict.isTruthy = false := rfl
    simp only [first, hstrictly, hleniently, hevents]
    refine ⟨fun f hf => ⟨?_, hoffends f hf⟩, hclean, fun g hg => .inr ?_⟩
    · obtain ⟨e, -, he⟩ := List.exists_of_findSome?_eq_some hf
      exact Event.isProgramming_of_offence? he
    · exact exists_failed_of_analyzeFiles trees hstarts hlenient
        (fun tree htree => (built_strictly hthrough (hbuild tree htree)).1) (.empty h) hg

/-- What happens when a rule with one handler visits a file with one block. -/
lemma exists_lenientEvents_blockRule (name : String) (handler : Handler) :
    ∃ s : Session, lenientEvents [blockRule name handler] Config.default Hierarchy.standard ∅
        [Traversal.blockFile] =
      (handler (contextFor Config.default Traversal.blockFile)
        ((∅ : Links).site Traversal.blockFile.root)).events name ∅ s := by
  have hvalid := (RuleSet.validate_eq_ok_iff _).2 (sound_blockRule name handler)
  obtain ⟨hplan, -⟩ := traversed_blockRule name handler (Config.default.withStrict false) ∅
    ⟨Hierarchy.standard, []⟩ rfl Nat.one_ne_zero
  refine ⟨built [blockRule name handler] (Config.default.withStrict false) ∅ Traversal.blockFile
    ⟨Hierarchy.standard, []⟩, ?_⟩
  simp only [lenientEvents, hvalid, eventsFrom_singleton, eventsIn, hplan,
    Traversal.eventsOf_singleton]
  rfl

omit [Machine] in
/-- A rule that reports once, and lets the fault through. -/
lemma letsThrough_blockRule (name : String) (report : Site → Report) :
    (blockRule name fun _ site => .reportOnce (report site)).LetsThrough := by
  intro card setup hcard hsetup context
  cases hsetup
  refine ⟨Script.letsThrough_addAll _, Script.addsOnly_addAll (List.forall_mem_singleton.2
    fun handler hhandler context site => ?_)⟩
  cases hhandler
  exact ⟨fun f => rfl, fun answer => by cases answer <;> trivial⟩

/-- A rule that reports, for every block, a kind that it does not declare. -/
def oddRule : Rule :=
  blockRule "odd" fun _ site => .reportOnce ⟨"odd", site.node.span, plainKind "other", []⟩

lemma offence?_oddRule (answer : Except Fault (Option Finding)) :
    Event.offence? [oddRule] (.reported ⟨"odd", ⟨0, 2⟩, plainKind "other", []⟩ answer) =
      some (.undeclared "odd" "other") := by
  rw [Event.offence?, Report.offence?, (isWellFormed_plainKind "other").2.1]
  rfl

end Analysis

namespace Analysis

attribute [local instance] Machine.small

theorem analyzeTrees_strict_odd :
    (∀ tree ∈ [Traversal.blockFile], tree.lineStarts.size ≠ 0) ∧
    (∀ tree ∈ [Traversal.blockFile], (building [oddRule] (Config.default.withStrict true) ∅ tree
      ⟨Hierarchy.standard, []⟩).1 = .ok ()) ∧
    (∀ r ∈ [oddRule], r.LetsThrough) ∧
    (analyzeTrees [oddRule] (Config.default.withStrict true) Hierarchy.standard ∅
      [Traversal.blockFile]).result = .error (.undeclared "odd" "other") := by
  have hstarts : ∀ tree ∈ [Traversal.blockFile], tree.lineStarts.size ≠ 0 :=
    List.forall_mem_singleton.2 Nat.one_ne_zero
  have hbuild : ∀ tree ∈ [Traversal.blockFile], (building [oddRule]
      (Config.default.withStrict true) ∅ tree ⟨Hierarchy.standard, []⟩).1 = .ok () :=
    List.forall_mem_singleton.2 (building_blockRule _ _ _ _ _ _).1
  have hthrough : ∀ r ∈ [oddRule], r.LetsThrough :=
    List.forall_mem_singleton.2 (letsThrough_blockRule _ _)
  obtain ⟨hoffends, -⟩ := analyzeTrees_strict [oddRule] Config.default Hierarchy.standard ∅
    [Traversal.blockFile] hstarts hbuild hthrough
  have hfirst : ∀ answer more, (Event.reported ⟨"odd", ⟨0, 2⟩, plainKind "other", []⟩ answer ::
      more).findSome? (Event.offence? [oddRule]) = some (.undeclared "odd" "other") := by
    intro answer more
    rw [List.findSome?_cons, offence?_oddRule]
  refine ⟨hstarts, hbuild, hthrough, (hoffends _ ?_).2⟩
  obtain ⟨s, hevents⟩ := exists_lenientEvents_blockRule "odd"
    fun _ site => .reportOnce ⟨"odd", site.node.span, plainKind "other", []⟩
  have hodd : lenientEvents [oddRule] Config.default Hierarchy.standard ∅ [Traversal.blockFile] =
      (Script.reportOnce ⟨"odd", ⟨0, 2⟩, plainKind "other", []⟩).events "odd" ∅ s := hevents
  rw [hodd]
  exact hfirst _ _

end Analysis

/-! ### A number of arguments that is too long for a text -/

/-- A template with one slot, whose index is written with some nines. -/
def ninesTemplate (n : Nat) : List Char := '\x7b' :: (List.replicate n '9' ++ ['\x7d'])

lemma spanDigits_replicate (n : Nat) :
    Template.spanDigits (List.replicate n '9' ++ ['\x7d']) = (List.replicate n 9, ['\x7d']) := by
  induction n with
  | zero => rfl
  | succ n ih =>
    have hnine : Text.digitValue? '9' = some 9 := by decide
    rw [List.replicate_succ, List.cons_append, Template.spanDigits, hnine]
    simp only [ih]
    rfl

lemma pieces_ninesTemplate (n : Nat) :
    Template.pieces (ninesTemplate (n + 1)) =
      [.slot (Text.ofDigits (List.replicate (n + 1) 9)) (n + 1)] := by
  have hslot : Template.slotAfterBrace (List.replicate (n + 1) '9' ++ ['\x7d']) =
      some (List.replicate (n + 1) 9, []) := by
    rw [Template.slotAfterBrace, spanDigits_replicate]
    rfl
  rw [ninesTemplate, Template.pieces, if_pos rfl]
  split
  · next digits after h =>
    rw [hslot] at h
    cases h
    rw [List.length_replicate, Template.pieces]
  · next h =>
    rw [hslot] at h
    cases h

lemma ofDigits_replicate (n : Nat) : Text.ofDigits (List.replicate n 9) + 1 = Nat.pow 10 n := by
  induction n with
  | zero => rfl
  | succ n ih =>
    have hstep : Text.ofDigits (List.replicate (n + 1) 9) =
        10 * Text.ofDigits (List.replicate n 9) + 9 := by
      rw [Text.ofDigits, List.replicate_succ', List.foldl_append]
      rfl
    have hpow : Nat.pow 10 (n + 1) = Nat.pow 10 n * 10 := Nat.pow_succ 10 n
    rw [hstep, hpow, ← ih]
    omega

namespace Analysis

/-- A kind whose template uses only the index that is written with some nines. -/
def ninesKind (n : Nat) : DiagnosticKind :=
  ⟨"long", "long.other", String.ofList (ninesTemplate n), "warn", none⟩

lemma arity_ninesKind {n : Nat} (hpos : n ≠ 0) (hlimit : n ≤ Value.digitLimit) :
    (ninesKind n).arity = .ok (Nat.pow 10 n) := by
  obtain ⟨k, rfl⟩ := Nat.exists_eq_succ_of_ne_zero hpos
  have hpieces : (ninesKind (k + 1)).pieces =
      [.slot (Text.ofDigits (List.replicate (k + 1) 9)) (k + 1)] := by
    rw [DiagnosticKind.pieces, ninesKind, String.toList_ofList, pieces_ninesTemplate]
  have hread : Template.tooLong? Value.digitLimit (ninesKind (k + 1)).pieces = none := by
    rw [hpieces]
    simp only [Template.tooLong?, Template.tooLongSlot?, List.findSome?_singleton,
      Nat.not_lt.2 hlimit, if_false]
  rw [DiagnosticKind.arity, DiagnosticKind.withPieces_of_none hread, hpieces,
    ← ofDigits_replicate]
  rfl

/-- A kind that expects a number of arguments that is too long for a text. -/
def longKind : DiagnosticKind := ninesKind Value.digitLimit

lemma arity_longKind : longKind.arity = .ok Value.leastLong := by
  have hpos : Value.digitLimit ≠ 0 := by decide
  have hlong : ∀ n, n = Value.digitLimit → Nat.pow 10 n = Value.leastLong := by
    intro n hn
    unfold Value.leastLong
    rw [hn]
  rw [longKind, arity_ninesKind hpos (Nat.le_refl _), hlong _ rfl]

/-- The report of a kind that expects a number of arguments that is too long for a text. -/
def longReport (span : Span) : Report := ⟨"long", span, longKind, []⟩

lemma length_longReport (span : Span) : (longReport span).arguments.length ≠ Value.leastLong := by
  rw [longReport, List.length_nil]
  exact (Nat.ne_of_gt (Nat.lt_of_lt_of_le (by decide) Value.ten_le_leastLong)).symm

/-- A wrong number of arguments is refused in both modes if that expected is too long for a text. -/
lemma refusal?_of_long {report : Report} {arity : Nat} {why : TextFault}
    (harity : report.code.arity = .ok arity) (hcount : report.arguments.length ≠ arity)
    (hlong : Value.decimal arity = .error why) (r : Reporter) :
    r.refusal? report = some (.text why) := by
  simp only [Reporter.refusal?, harity, Reporter.countFault?, if_neg hcount, hlong]

lemma offence?_of_long {report : Report} {arity : Nat} {why : TextFault}
    (harity : report.code.arity = .ok arity) (hcount : report.arguments.length ≠ arity)
    (hlong : Value.decimal arity = .error why) (rules : List Rule) :
    report.offence? rules = none := by
  simp only [Report.offence?, harity, if_pos hcount, hlong]

lemma arity_longReport (span : Span) : (longReport span).code.arity = .ok Value.leastLong :=
  arity_longKind

/-- Makes such a report. -/
def longHandler : Handler := fun _ site => .reportOnce (longReport site.node.span)

/-- A rule that makes such a report for every block. -/
def longRule : Rule := blockRule "long" longHandler

section

variable [Machine]

/-- The report fails in both modes, and its fault is let through. -/
lemma run_longReport (span : Span) (s : Session) :
    (Script.reportOnce (longReport span)).events "long" ∅ s =
        [.reported (longReport span) (.error (.text .longInteger)), .failed (.text .longInteger)] ∧
      (Script.reportOnce (longReport span)).run "long" ∅ s =
        (some (.text .longInteger), s.afterReport (longReport span)) := by
  have hreport : (s.reporter.report (longReport span)).1 = .error (.text .longInteger) := by
    rw [Reporter.report,
      refusal?_of_long (arity_longReport _) (length_longReport _) Value.decimal_leastLong]
  rw [Script.reportOnce, Script.events, Script.run_report, hreport]
  exact ⟨rfl, rfl⟩

/-- This is all that happens on a file with one block. -/
lemma lenientEvents_longRule :
    lenientEvents [longRule] Config.default Hierarchy.standard ∅ [Traversal.blockFile] =
      [.reported (longReport ⟨0, 2⟩) (.error (.text .longInteger)),
        .failed (.text .longInteger)] := by
  obtain ⟨s, hevents⟩ := exists_lenientEvents_blockRule "long" longHandler
  rw [longRule, hevents]
  exact (run_longReport ⟨0, 2⟩ s).1

/-- Such a report is all that the handler does. -/
lemma recordOf_longHandler (context : Context) (node : Node) (s : Session) :
    (Traversal.recordOf context ∅ ⟨node, ⟨"long", "long", longHandler⟩⟩ s).events =
        [.reported (longReport ((∅ : Links).site node).node.span) (.error (.text .longInteger)),
          .failed (.text .longInteger)] ∧
      (Traversal.recordOf context ∅ ⟨node, ⟨"long", "long", longHandler⟩⟩ s).fault =
        some (.text .longInteger) := by
  obtain ⟨hevents, hrun⟩ := run_longReport ((∅ : Links).site node).node.span s
  exact ⟨hevents, Traversal.fault_recordOf (c := ⟨node, ⟨"long", "long", longHandler⟩⟩) hrun⟩

/-- Outside strict mode the rule has a result of a file with one block, since the fault can be
told. -/
lemma exists_result_longRule (config : Config) (hlenient : config.strict.isTruthy = false) :
    ∃ r, (analyzeTree [longRule] config Hierarchy.standard ∅ Traversal.blockFile).result =
      .ok r :=
  (exists_result_blockRule_iff "long" longHandler config Hierarchy.standard ∅ rfl
    Nat.one_ne_zero).2 (by
      rw [hlenient, Record.ending?_lenient_eq_none_iff, (recordOf_longHandler _ _ _).2]
      intro f hf
      cases hf
      rfl)

end

/-! ### A refusal that a rule takes no notice of -/

/-- Reports a kind that is not declared, and takes no notice of what becomes of the report. -/
def heedlessScript : Script :=
  .report ⟨"heedless", ⟨0, 2⟩, plainKind "other", []⟩ fun _ => .done

/-- A rule that does so when it registers. -/
def heedlessRule : Rule := scriptRule "heedless" heedlessScript

section

variable [Machine]

/-- The report makes a finding exactly outside strict mode. -/
lemma findings_heedlessRule (strict : Bool) :
    ((RuleSet.declared heedlessRule (RuleSet.opening [heedlessRule] (reporterFor
      (Config.default.withStrict strict) Traversal.blockFile) ⟨Hierarchy.standard, []⟩).session
        ).afterReport ⟨"heedless", ⟨0, 2⟩, plainKind "other", []⟩).reporter.findings = [] ↔
      strict = true := by
  let s := RuleSet.declared heedlessRule (RuleSet.opening [heedlessRule] (reporterFor
    (Config.default.withStrict strict) Traversal.blockFile) ⟨Hierarchy.standard, []⟩).session
  show (s.reporter.report ⟨"heedless", ⟨0, 2⟩, plainKind "other", []⟩).2.findings = [] ↔ _
  cases strict with
  | true =>
    obtain ⟨-, harity, -⟩ := isWellFormed_plainKind "other"
    have hrefusal : s.reporter.refusal? ⟨"heedless", ⟨0, 2⟩, plainKind "other", []⟩ =
        some (.undeclared "heedless" "other") := by
      rw [Reporter.refusal?, harity]
      rfl
    rw [Reporter.report, hrefusal]
    exact ⟨fun _ => rfl, fun _ => rfl⟩
  | false =>
    have hvocabulary := Reporter.vocabularyFault?_of_lenient (r := s.reporter) rfl
      ⟨"heedless", ⟨0, 2⟩, plainKind "other", []⟩
    obtain ⟨f, hf, -⟩ := exists_report_plainKind (r := s.reporter) Nat.one_ne_zero rfl rfl
      hvocabulary
    rw [hf]
    simp [Reporter.withFinding]

/-- On a file with one block nothing happens in the calls, and the rule has made a finding exactly
outside strict mode. -/
lemma exists_result_heedlessRule (strict : Bool) :
    (building [heedlessRule] (Config.default.withStrict strict) ∅ Traversal.blockFile
        ⟨Hierarchy.standard, []⟩).1 = .ok () ∧
      lenientEvents [heedlessRule] Config.default Hierarchy.standard ∅ [Traversal.blockFile] = [] ∧
      ∃ r, (analyzeTree [heedlessRule] (Config.default.withStrict strict) Hierarchy.standard ∅
          Traversal.blockFile).result = .ok r ∧
        (r.findings = [] ↔ strict = true) := by
  have hvalid := (RuleSet.validate_eq_ok_iff _).2 (sound_scriptRule "heedless" heedlessScript)
  have hrun : ∀ mode, heedlessScript.run "heedless" ∅ (RuleSet.declared heedlessRule
      (RuleSet.opening [heedlessRule] (reporterFor (Config.default.withStrict mode)
        Traversal.blockFile) ⟨Hierarchy.standard, []⟩).session) = (none, _) := fun _ => rfl
  obtain ⟨hbuild, -, r, hr, hfindings⟩ := result_scriptRule (hrun strict) fun _ => rfl
  obtain ⟨-, hplan, -⟩ := result_scriptRule (hrun false) fun _ => rfl
  refine ⟨hbuild, ?_, r, hr, ?_⟩
  · rw [heedlessRule, lenientEvents, hvalid]
    simp only [eventsFrom_singleton, eventsIn, hplan, Traversal.eventsOf]
  · rw [hfindings, filterFindings_blockFile]
    exact findings_heedlessRule strict

end

attribute [local instance] Machine.small

/-- That a report passes a wrong number of arguments is not enough to end the analysis in strict
mode: a number expected that is too long for a text makes the report fail with a fault of another
class.  And if a rule that registers takes no notice of the fault of its report, the modes may
differ although nothing happens in the calls that strict mode does not allow. -/
theorem not_forall_strict_fails :
    (¬ ∀ rules config h links trees,
      (∀ tree ∈ trees, tree.lineStarts.size ≠ 0) →
      (∀ tree ∈ trees,
        (building rules (config.withStrict true) links tree ⟨h, []⟩).1 = .ok ()) →
      (∀ r ∈ rules, r.LetsThrough) →
      ∀ report answer arity,
        Event.reported report answer ∈ lenientEvents rules config h links trees →
        report.code.arity = .ok arity → report.arguments.length ≠ arity →
        ∃ f, (analyzeTrees rules (config.withStrict true) h links trees).result = .error f) ∧
    ¬ ∀ rules config h links trees,
      (∀ tree ∈ trees, tree.lineStarts.size ≠ 0) →
      (∀ tree ∈ trees,
        (building rules (config.withStrict true) links tree ⟨h, []⟩).1 = .ok ()) →
      (∀ r ∈ rules, r.SetsUp fun _ script => script.AddsOnly fun reg =>
        ∀ handler, reg.handler = some handler →
          ∀ context site, (handler context site).LetsThrough) →
      (lenientEvents rules config h links trees).findSome? (Event.offence? rules) = none →
      (analyzeTrees rules (config.withStrict true) h links trees).result =
        (analyzeTrees rules (config.withStrict false) h links trees).result := by
  have hstarts : ∀ tree ∈ [Traversal.blockFile], tree.lineStarts.size ≠ 0 :=
    List.forall_mem_singleton.2 Nat.one_ne_zero
  constructor
  · intro hall
    have hsound : RuleSet.Sound [longRule] := sound_blockRule _ _
    have hvalid := (RuleSet.validate_eq_ok_iff _).2 hsound
    have hthrough : ∀ r ∈ [longRule], r.LetsThrough :=
      List.forall_mem_singleton.2 (letsThrough_blockRule _ _)
    have hbuild : ∀ tree ∈ [Traversal.blockFile], (building [longRule]
        (Config.default.withStrict true) ∅ tree ⟨Hierarchy.standard, []⟩).1 = .ok () :=
      List.forall_mem_singleton.2 (building_blockRule _ _ _ _ _ _).1
    obtain ⟨f, hf⟩ := hall [longRule] Config.default Hierarchy.standard ∅ [Traversal.blockFile]
      hstarts hbuild hthrough (longReport ⟨0, 2⟩) (.error (.text .longInteger))
      Value.leastLong (by rw [lenientEvents_longRule]; exact List.mem_cons_self)
      (arity_longReport _) (length_longReport _)
    obtain ⟨-, hclean⟩ := analyzeFiles_strictly Config.default hsound hthrough ∅
      [Traversal.blockFile] hstarts hbuild (.empty Hierarchy.standard)
    have hevents := lenientEvents_longRule
    simp only [lenientEvents, hvalid] at hevents
    rw [hevents] at hclean
    have hnone : [Event.reported (longReport ⟨0, 2⟩) (.error (.text .longInteger)),
        .failed (.text .longInteger)].findSome? (Event.offence? [longRule]) = none := by
      have hoffence : (Event.reported (longReport ⟨0, 2⟩)
          (.error (.text .longInteger))).offence? [longRule] = none :=
        offence?_of_long (arity_longReport _) (length_longReport _) Value.decimal_leastLong _
      rw [List.findSome?_cons, hoffence]
      rfl
    -- so the modes agree, but outside strict mode the fault of the report is told
    obtain ⟨r, hr⟩ := exists_result_longRule (Config.default.withStrict false) rfl
    have hlenient := result_analyzeTrees_singleton hr
    simp only [analyzeTrees, hvalid] at hf hlenient
    rw [hclean hnone, hlenient] at hf
    cases hf
  · intro hall
    obtain ⟨hbuild, hevents, r, hr, hnone⟩ := exists_result_heedlessRule true
    obtain ⟨-, -, r', hr', hsome⟩ := exists_result_heedlessRule false
    have hrules : ∀ r ∈ [heedlessRule], r.SetsUp fun _ script => script.AddsOnly fun reg =>
        ∀ handler, reg.handler = some handler →
          ∀ context site, (handler context site).LetsThrough := by
      rw [List.forall_mem_singleton]
      intro card setup hcard hsetup context
      cases hsetup
      exact fun _ => trivial
    have hsame := hall [heedlessRule] Config.default Hierarchy.standard ∅ [Traversal.blockFile]
      hstarts (List.forall_mem_singleton.2 hbuild) hrules (by rw [hevents]; rfl)
    rw [result_analyzeTrees_singleton hr, result_analyzeTrees_singleton hr'] at hsame
    cases hsame
    exact Bool.false_ne_true (hsome.1 (hnone.2 rfl))

end Analysis

end TreeLint
