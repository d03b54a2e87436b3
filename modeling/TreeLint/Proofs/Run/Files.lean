/-
Files do not depend on each other.

For every file the rules register anew, and what they and their handlers do may depend
on the file and on the configuration.  The files of one analysis share what is
remembered about the classes, and nothing else.  Sessions that differ only in that, and
remember nothing wrong, are alike: a script does the same in both, hence so do the rules
that register and the calls of a traversal, and the analysis of a file comes to the same
result with any sound memory.  So analysing several files is analysing each by itself,
up to the first that fails: `Analysis.result_analyzeTrees`.
-/
import TreeLint.Proofs.Except
import TreeLint.Proofs.Model.Memory
import TreeLint.Proofs.Rule.Enrollment
import TreeLint.Proofs.Run.Dispatch
import TreeLint.Run.Analysis
namespace TreeLint

/-! ### Sessions that differ in what they remember -/

/-- A memory of a hierarchy in which nothing wrong is remembered. -/
structure Supertypes.Remembers (h : Hierarchy) (m : Supertypes) : Prop where
  hierarchy_eq : m.hierarchy = h
  sound : m.Sound

namespace Supertypes.Remembers

variable {h : Hierarchy} {m : Supertypes}

lemma empty (h : Hierarchy) : Remembers h ⟨h, []⟩ := ⟨rfl, sound_empty h⟩

lemma answer_eq (hm : m.Remembers h) (type : Ty) (name library : String) :
    (m.extendsClass type name library).1 = h.extends type name library := by
  rw [hm.sound.extendsClass_fst, hm.hierarchy_eq]

lemma extendsClass (hm : m.Remembers h) (type : Ty) (name library : String) :
    (m.extendsClass type name library).2.Remembers h where
  hierarchy_eq := by rw [hierarchy_extendsClass, hm.hierarchy_eq]
  sound := hm.sound.extendsClass type name library

end Supertypes.Remembers

/-- Two sessions that differ at most in what they remember of a hierarchy, and remember nothing
wrong. -/
structure Session.Alike (h : Hierarchy) (s₁ s₂ : Session) : Prop where
  reporter_eq : s₁.reporter = s₂.reporter
  registry_eq : s₁.registry = s₂.registry
  left : s₁.supertypes.Remembers h
  right : s₂.supertypes.Remembers h

namespace Session.Alike

variable {h : Hierarchy} {s₁ s₂ : Session}

lemma declare (hs : s₁.Alike h s₂) (rule : String) (ids : List String) :
    (s₁.declare rule ids).Alike h (s₂.declare rule ids) :=
  { hs with reporter_eq := by simp only [Session.declare, hs.reporter_eq] }

lemma freeze (hs : s₁.Alike h s₂) : s₁.freeze.Alike h s₂.freeze :=
  { hs with registry_eq := by simp only [Session.registry_freeze, hs.registry_eq] }

end Session.Alike

section

variable [Machine]

/-- What is remembered makes no difference to a script. -/
lemma Session.alike_simulation (h : Hierarchy) :
    Session.Simulation (fun _ => True) (fun _ => True) (Session.Alike h) where
  report_answer hs _ := by rw [hs.reporter_eq]
  report_step hs _ :=
    ⟨by simp only [afterReport, hs.reporter_eq], hs.registry_eq, hs.left, hs.right⟩
  add _ hs _ := add_of_registry_eq hs.registry_eq
    (fun _ => ⟨hs.reporter_eq, rfl, hs.left, hs.right⟩) _ _
  question_answer hs := by rw [hs.left.answer_eq, hs.right.answer_eq]
  question_step hs :=
    ⟨hs.reporter_eq, hs.registry_eq, hs.left.extendsClass _ _ _, hs.right.extendsClass _ _ _⟩

/-- Every script runs alike in sessions that are alike. -/
lemma Session.Alike.runsAlike (h : Hierarchy) (owner : String) (links : Links) (script : Script) :
    script.RunsAlike (Session.Alike h) owner links :=
  script.run_simulates (alike_simulation h) owner links
    (script.reportsOnly_of_forall fun _ => trivial) (script.addsOnly_of_forall fun _ => trivial)

end

/-! ### The analysis of one file -/

namespace Analysis

variable [Machine] {rules : List Rule} {config : Config} {links : Links} {tree : Tree}
  {m : Supertypes} {h : Hierarchy} {f : Fault} {t : Traversal}

/-- What comes of building the registry of a file. -/
def building (rules : List Rule) (config : Config) (links : Links) (tree : Tree)
    (m : Supertypes) : Except Fault Unit × RuleSet.Building :=
  RuleSet.buildRegistry rules (contextFor config tree) links (reporterFor config tree) m

/-- The session that the rules of a file leave, once they have registered. -/
def built (rules : List Rule) (config : Config) (links : Links) (tree : Tree) (m : Supertypes) :
    Session :=
  (building rules config links tree m).2.session

/-- The calls to be made on a file: on each node the handlers for its kind, in the order of their
registration. -/
def plan (rules : List Rule) (config : Config) (links : Links) (tree : Tree) (m : Supertypes) :
    List Call :=
  Traversal.agenda (built rules config links tree m).registry tree.root.preorder

/-- What comes of the calls that are made on a file. -/
def traversed (rules : List Rule) (config : Config) (links : Links) (tree : Tree)
    (m : Supertypes) : Option Fault × Traversal :=
  Traversal.performAll config.strict.isTruthy (contextFor config tree) links
    (plan rules config links tree m) { session := built rules config links tree m }

/-- The rules of a file register in the session that the registry is built in. -/
lemma frozen_built (hbuild : (building rules config links tree m).1 = .ok ()) :
    (built rules config links tree m).registry.frozen = true :=
  RuleSet.frozen_of_buildRegistry hbuild

/-- The rules of a file leave the session in which the last of them has registered, frozen. -/
lemma built_eq (hbuild : (building rules config links tree m).1 = .ok ()) :
    (RuleSet.enrollAll (contextFor config tree) links rules
      (RuleSet.opening rules (reporterFor config tree) m)).1 = .ok () ∧
    built rules config links tree m = (RuleSet.enrollAll (contextFor config tree) links rules
      (RuleSet.opening rules (reporterFor config tree) m)).2.session.freeze := by
  unfold building at hbuild
  refine ⟨RuleSet.buildRegistry_of_ok.1.1 hbuild, ?_⟩
  rw [built, building, RuleSet.buildRegistry_of_ok.2 hbuild]

/-- Once the registry of a sound list is built, the reporter knows what the rules declare. -/
lemma declared_built (hbuild : (building rules config links tree m).1 = .ok ()) :
    (built rules config links tree m).reporter.declared =
      (rules.map RuleSet.vocabulary).reverse := by
  obtain ⟨henroll, hbuilt⟩ := built_eq hbuild
  rw [hbuilt]
  exact (RuleSet.declared_enrollAll henroll).trans (List.append_nil _)

/-- The handlers that are called on a file are of the sort that its rules add. -/
lemma handlers_of_mem_plan {Q : String → Script → Prop}
    (hrules : ∀ rule ∈ rules, rule.SetsUp fun _ script => script.AddsOnly fun reg =>
      ∀ handler, reg.handler = some handler →
        ∀ context site, Q reg.rule (handler context site))
    (hbuild : (building rules config links tree m).1 = .ok ()) :
    ∀ c ∈ plan rules config links tree m, ∀ context,
      Q c.processor.rule (c.script context links) := by
  have hholds := RuleSet.handlers_of_buildRegistry
    (Q := fun name handler => ∀ context site, Q name (handler context site))
    (fun rule hrule => (hrules rule hrule).setsUpIn _) hbuild
  intro c hc context
  obtain ⟨-, hp⟩ := Traversal.mem_agenda_iff.1 hc
  exact hholds _ _ hp _ _

/-- The traversal of a file makes the calls of its plan. -/
lemma run_built (hbuild : (building rules config links tree m).1 = .ok ()) (strict : Bool) :
    Traversal.run strict (contextFor config tree) links (built rules config links tree m) =
      Traversal.performAll strict (contextFor config tree) links (plan rules config links tree m)
        { session := built rules config links tree m } := by
  have hfreeze : (built rules config links tree m).freeze = built rules config links tree m := by
    have hfrozen := frozen_built hbuild
    generalize built rules config links tree m = s at hfrozen ⊢
    rw [Session.freeze, Registry.freeze, ← hfrozen]
  rw [Traversal.run_eq_performAll, hfreeze]
  rfl

/-- What all scripts keep holds at the end of a traversal. -/
lemma preserves_traversed {P : Session → Prop}
    (inv : Session.Invariant (fun _ => True) (fun _ => True) P)
    (hbuilt : P (built rules config links tree m)) :
    P (traversed rules config links tree m).2.session :=
  Traversal.performAll_preserves _ _ links _
    (fun _ _ _ hs => RuleSet.run_preserves_of_forall inv _ links _ hs) hbuilt

/-- What declarations keep and all scripts keep holds at the end of a traversal if it holds before
the first rule registers. -/
lemma preserves_traversed_of_opening {P : Session → Prop}
    (inv : Session.Invariant (fun _ => True) (fun _ => True) P)
    (hdeclare : ∀ s name ids, P s → P (s.declare name ids)) (hfreeze : ∀ s, P s → P s.freeze)
    (hstart : P (RuleSet.opening rules (reporterFor config tree) m).session)
    (hbuild : (building rules config links tree m).1 = .ok ()) :
    P (traversed rules config links tree m).2.session :=
  preserves_traversed inv (RuleSet.buildRegistry_preserves hdeclare hfreeze
    (fun _ _ _ _ _ _ _ => RuleSet.run_preserves_of_forall inv _ links _) hstart hbuild)

/-- A file whose registry cannot be built fails before any handler is called on it. -/
lemma analyzeFile_of_unbuilt (hbuild : (building rules config links tree m).1 = .error f) :
    (analyzeFile rules config links tree m).result = .error f ∧
      (analyzeFile rules config links tree m).journal.trace = [] := by
  unfold building at hbuild
  unfold analyzeFile
  simp only
  rcases hb : RuleSet.buildRegistry rules (contextFor config tree) links
    (reporterFor config tree) m with ⟨_ | _, b⟩ <;> rw [hb] at hbuild <;> cases hbuild
  exact ⟨rfl, rfl⟩

/-- A file whose registry is built fails with the fault that ends the traversal. -/
lemma analyzeFile_of_ended (hbuild : (building rules config links tree m).1 = .ok ())
    (hended : traversed rules config links tree m = (some f, t)) :
    (analyzeFile rules config links tree m).result = .error f ∧
      (analyzeFile rules config links tree m).journal.trace = t.trace := by
  rw [traversed, ← run_built hbuild] at hended
  unfold built building at hended
  unfold building at hbuild
  unfold analyzeFile
  simp only
  rcases hb : RuleSet.buildRegistry rules (contextFor config tree) links
    (reporterFor config tree) m with ⟨_ | _, b⟩ <;> rw [hb] at hbuild hended
  · cases hbuild
  · simp only [hended]
    exact ⟨trivial, trivial⟩

/-- A file whose registry is built has a result if nothing ends the traversal. -/
lemma analyzeFile_of_returned (hbuild : (building rules config links tree m).1 = .ok ())
    (hended : traversed rules config links tree m = (none, t)) :
    (analyzeFile rules config links tree m).result = .ok (fileResult config tree t
        (filterFindings config tree t.session.reporter.findings), t.session.supertypes) ∧
      (analyzeFile rules config links tree m).journal.trace = t.trace := by
  rw [traversed, ← run_built hbuild] at hended
  unfold built building at hended
  unfold building at hbuild
  unfold analyzeFile
  simp only
  rcases hb : RuleSet.buildRegistry rules (contextFor config tree) links
    (reporterFor config tree) m with ⟨_ | _, b⟩ <;> rw [hb] at hbuild hended
  · cases hbuild
  · simp only [hended]
    exact ⟨trivial, trivial⟩

/-- A file has a result exactly if its registry is built and nothing ends the traversal. -/
lemma exists_traversal_of_result {r : FileResult × Supertypes}
    (hresult : (analyzeFile rules config links tree m).result = .ok r) :
    (building rules config links tree m).1 = .ok () ∧ ∃ t,
      traversed rules config links tree m = (none, t) ∧
      r = (fileResult config tree t (filterFindings config tree t.session.reporter.findings),
        t.session.supertypes) := by
  rcases hbuild : (building rules config links tree m).1 with f | _
  · rw [(analyzeFile_of_unbuilt hbuild).1] at hresult
    cases hresult
  · rcases hended : traversed rules config links tree m with ⟨_ | f, t⟩
    · rw [(analyzeFile_of_returned hbuild hended).1] at hresult
      exact ⟨rfl, t, rfl, (Except.ok.inj hresult).symm⟩
    · rw [(analyzeFile_of_ended hbuild hended).1] at hresult
      cases hresult

/-- **Files are analysed alike** from related sessions, if the setups and the handlers run alike
under the relation, and related sessions have the same registry: both analyses fail, with the same
fault, or neither does, and then the traversals have noted the same. -/
theorem analyzeFile_alike {R : Session → Session → Prop} {config₁ config₂ : Config}
    {m₁ m₂ : Supertypes} (hcontext : contextFor config₁ tree = contextFor config₂ tree)
    (hstrict : config₁.strict.isTruthy = config₂.strict.isTruthy)
    (hregistry : ∀ s₁ s₂, R s₁ s₂ → s₁.registry = s₂.registry)
    (hdeclare : ∀ s₁ s₂ name ids, R s₁ s₂ → R (s₁.declare name ids) (s₂.declare name ids))
    (hfreeze : ∀ s₁ s₂, R s₁ s₂ → R s₁.freeze s₂.freeze)
    (hsetups : ∀ rule ∈ rules, rule.SetsUp fun name script => script.RunsAlike R name links)
    (hhandlers : (building rules config₁ links tree m₁).1 = .ok () →
      ∀ c ∈ plan rules config₁ links tree m₁,
        (c.script (contextFor config₁ tree) links).RunsAlike R c.owner links)
    (hstart : R (RuleSet.opening rules (reporterFor config₁ tree) m₁).session
      (RuleSet.opening rules (reporterFor config₂ tree) m₂).session) :
    (∃ f, (analyzeFile rules config₁ links tree m₁).result = .error f ∧
      (analyzeFile rules config₂ links tree m₂).result = .error f) ∨
    ∃ t₁ t₂, (building rules config₁ links tree m₁).1 = .ok () ∧
      (building rules config₂ links tree m₂).1 = .ok () ∧
      traversed rules config₁ links tree m₁ = (none, t₁) ∧
      traversed rules config₂ links tree m₂ = (none, t₂) ∧ Traversal.Alike R t₁ t₂ := by
  obtain ⟨hend, hafter⟩ := RuleSet.buildRegistry_alike (contextFor config₁ tree) hdeclare hfreeze
    hsetups hstart
  have hsecond : RuleSet.buildRegistry rules (contextFor config₁ tree) links
      (reporterFor config₂ tree) m₂ = building rules config₂ links tree m₂ := by
    rw [building, hcontext]
  rw [hsecond] at hend hafter
  rcases hbuild : (building rules config₁ links tree m₁).1 with f | _
  · exact .inl ⟨f, (analyzeFile_of_unbuilt hbuild).1,
      (analyzeFile_of_unbuilt (hend.symm.trans hbuild)).1⟩
  · replace hafter : R (built rules config₁ links tree m₁) (built rules config₂ links tree m₂) :=
      hafter hbuild
    have hbuild' := hend.symm.trans hbuild
    -- with the same registry the same calls are to be made
    have hplan : plan rules config₂ links tree m₂ = plan rules config₁ links tree m₁ := by
      rw [plan, plan, hregistry _ _ hafter]
    have hopening : Traversal.Alike R { session := built rules config₁ links tree m₁ }
        { session := built rules config₂ links tree m₂ } := ⟨hafter, rfl, rfl, rfl, rfl⟩
    obtain ⟨hended, halike⟩ := Traversal.performAll_alike config₁.strict.isTruthy
      (contextFor config₁ tree) links (plan rules config₁ links tree m₁) (hhandlers hbuild) hopening
    have hright : traversed rules config₂ links tree m₂ =
        Traversal.performAll config₁.strict.isTruthy (contextFor config₁ tree) links
          (plan rules config₁ links tree m₁)
          { session := built rules config₂ links tree m₂ } := by
      rw [traversed, hplan, hcontext, hstrict]
    rw [← hright] at hended halike
    rcases h₁ : traversed rules config₁ links tree m₁ with ⟨ended, t₁⟩
    rcases h₂ : traversed rules config₂ links tree m₂ with ⟨ended', t₂⟩
    rw [← traversed, h₁, h₂] at hended halike
    subst hended
    rcases ended with _ | f
    · exact .inr ⟨t₁, t₂, rfl, hbuild', rfl, rfl, halike⟩
    · exact .inl ⟨f, (analyzeFile_of_ended hbuild h₁).1, (analyzeFile_of_ended hbuild' h₂).1⟩

/-- With any sound memory the registry of a file is built alike. -/
lemma building_remembers (rules : List Rule) (config : Config) (links : Links) (tree : Tree)
    {m₁ m₂ : Supertypes} (h₁ : m₁.Remembers h) (h₂ : m₂.Remembers h) :
    (building rules config links tree m₁).1 = (building rules config links tree m₂).1 := by
  have hstart : Session.Alike h (RuleSet.opening rules (reporterFor config tree) m₁).session
      (RuleSet.opening rules (reporterFor config tree) m₂).session := ⟨rfl, rfl, h₁, h₂⟩
  exact (RuleSet.buildRegistry_alike (contextFor config tree) (fun _ _ _ _ hs => hs.declare _ _)
    (fun _ _ hs => hs.freeze) (fun _ _ _ _ _ _ _ => Session.Alike.runsAlike h _ links _) hstart).1

/-- With any sound memory the analysis of a file comes to the same result, and leaves a sound
memory. -/
lemma analyzeFile_remembers (rules : List Rule) (config : Config) (links : Links) (tree : Tree)
    {m₁ m₂ : Supertypes} (h₁ : m₁.Remembers h) (h₂ : m₂.Remembers h) :
    (∃ f, (analyzeFile rules config links tree m₁).result = .error f ∧
      (analyzeFile rules config links tree m₂).result = .error f) ∨
    ∃ r n₁ n₂, (analyzeFile rules config links tree m₁).result = .ok (r, n₁) ∧
      (analyzeFile rules config links tree m₂).result = .ok (r, n₂) ∧
      n₁.Remembers h ∧ n₂.Remembers h := by
  have hstart : Session.Alike h (RuleSet.opening rules (reporterFor config tree) m₁).session
      (RuleSet.opening rules (reporterFor config tree) m₂).session := ⟨rfl, rfl, h₁, h₂⟩
  rcases analyzeFile_alike rfl rfl (fun _ _ hs => hs.registry_eq)
      (fun _ _ _ _ hs => hs.declare _ _) (fun _ _ hs => hs.freeze)
      (fun _ _ _ _ _ _ _ => Session.Alike.runsAlike h _ links _)
      (fun _ _ _ => Session.Alike.runsAlike h _ _ _) hstart with
    hfault | ⟨t₁, t₂, hbuild₁, hbuild₂, ht₁, ht₂, halike⟩
  · exact .inl hfault
  · have hresult : fileResult config tree t₁
        (filterFindings config tree t₁.session.reporter.findings) = fileResult config tree t₂
          (filterFindings config tree t₂.session.reporter.findings) := by
      simp only [fileResult, halike.session.reporter_eq, halike.failures_eq, halike.calls_eq]
    refine .inr ⟨_, _, _, (analyzeFile_of_returned hbuild₁ ht₁).1, ?_, halike.session.left,
      halike.session.right⟩
    rw [hresult]
    exact (analyzeFile_of_returned hbuild₂ ht₂).1

/-- The analysis of a file leaves a sound memory. -/
lemma remembers_of_result {r : FileResult × Supertypes} (hm : m.Remembers h)
    (hr : (analyzeFile rules config links tree m).result = .ok r) : r.2.Remembers h := by
  rcases analyzeFile_remembers rules config links tree hm hm with
    ⟨f, herror, -⟩ | ⟨r', n, n', hok, -, hn, -⟩
  · rw [hr] at herror
    cases herror
  · rw [hr] at hok
    cases hok
    exact hn

/-! ### The analysis of several files -/

/-- Analysing several files is analysing each of them with an empty memory, up to the first that
fails. -/
theorem result_analyzeFiles (trees : List Tree) {m : Supertypes} (hm : m.Remembers h) :
    (analyzeFiles rules config links trees m).result =
      trees.mapM fun tree =>
        (analyzeFile rules config links tree ⟨h, []⟩).result.map Prod.fst := by
  induction trees generalizing m with
  | nil => rfl
  | cons tree rest ih =>
    rw [List.mapM_cons, analyzeFiles]
    rcases analyzeFile_remembers rules config links tree hm (.empty h) with
      ⟨f, h₁, h₂⟩ | ⟨r, n₁, n₂, h₁, h₂, hn, -⟩
    · rw [Outcome.bind_of_error h₁, h₂]
      rfl
    -- what the file leaves in the memory is sound again
    · rw [Outcome.bind_of_ok h₁, h₂]
      simp only [Outcome.bind, ih hn]
      cases rest.mapM fun tree =>
        (analyzeFile rules config links tree ⟨h, []⟩).result.map Prod.fst <;> rfl

/-- The result of a single file, once the rules are accepted. -/
lemma result_analyzeTree (hvalid : RuleSet.validate rules = .ok ()) :
    (analyzeTree rules config h links tree).result =
      (analyzeFile rules config links tree ⟨h, []⟩).result.map Prod.fst := by
  simp only [analyzeTree, hvalid, Outcome.bind]
  cases (analyzeFile rules config links tree ⟨h, []⟩).result <;> rfl

/-- A single file fails if its registry cannot be built. -/
lemma result_analyzeTree_of_unbuilt (hvalid : RuleSet.validate rules = .ok ())
    (hbuild : (building rules config links tree ⟨h, []⟩).1 = .error f) :
    (analyzeTree rules config h links tree).result = .error f := by
  rw [result_analyzeTree hvalid, (analyzeFile_of_unbuilt hbuild).1]
  rfl

/-- A single file fails if its traversal is ended. -/
lemma result_analyzeTree_of_ended (hvalid : RuleSet.validate rules = .ok ())
    (hbuild : (building rules config links tree ⟨h, []⟩).1 = .ok ())
    (hended : traversed rules config links tree ⟨h, []⟩ = (some f, t)) :
    (analyzeTree rules config h links tree).result = .error f := by
  rw [result_analyzeTree hvalid, (analyzeFile_of_ended hbuild hended).1]
  rfl

/-- The result of a single file is that of its traversal. -/
lemma result_analyzeTree_of_returned (hvalid : RuleSet.validate rules = .ok ())
    (hbuild : (building rules config links tree ⟨h, []⟩).1 = .ok ())
    (hended : traversed rules config links tree ⟨h, []⟩ = (none, t)) :
    (analyzeTree rules config h links tree).result = .ok (fileResult config tree t
      (filterFindings config tree t.session.reporter.findings)) := by
  rw [result_analyzeTree hvalid, (analyzeFile_of_returned hbuild hended).1]
  rfl

/-- Analysing several files is analysing each by itself, up to the first that fails; if there are
no files, the rules are still checked. -/
theorem result_analyzeTrees (rules : List Rule) (config : Config) (h : Hierarchy) (links : Links)
    (trees : List Tree) :
    (analyzeTrees rules config h links trees).result =
      (RuleSet.validate rules).bind fun _ =>
        trees.mapM fun tree => (analyzeTree rules config h links tree).result := by
  cases hvalid : RuleSet.validate rules with
  | error f => simp only [analyzeTrees, hvalid]; rfl
  | ok _ =>
    simp only [analyzeTrees, hvalid, result_analyzeFiles trees (.empty h),
      result_analyzeTree hvalid]
    rfl

/-- A file fails when the rules are not accepted. -/
lemma result_analyzeTree_of_refused {f : Fault} (hvalid : RuleSet.validate rules = .error f) :
    (analyzeTree rules config h links tree).result = .error f := by
  simp only [analyzeTree, hvalid]

/-- With at least one file, no check of the rules is left over. -/
lemma result_analyzeTrees_cons (rules : List Rule) (config : Config) (h : Hierarchy)
    (links : Links) (first : Tree) (rest : List Tree) :
    (analyzeTrees rules config h links (first :: rest)).result =
      (first :: rest).mapM fun tree => (analyzeTree rules config h links tree).result := by
  rw [result_analyzeTrees]
  cases hvalid : RuleSet.validate rules with
  | error f =>
    rw [List.mapM_cons, result_analyzeTree_of_refused hvalid]
    rfl
  | ok _ => rfl

/-- The analysis of a single file in a list. -/
lemma result_analyzeTrees_singleton {r : FileResult}
    (hr : (analyzeTree rules config h links tree).result = .ok r) :
    (analyzeTrees rules config h links [tree]).result = .ok [r] := by
  rw [result_analyzeTrees_cons]
  exact Except.mapM_eq_ok_iff.2 (.cons hr .nil)

/-- Each result of an analysis is that of a traversal of one of the files, with an accepted set of
rules whose registry is built. -/
lemma exists_traversal_of_mem_results {trees : List Tree} {results : List FileResult}
    (hresults : (analyzeTrees rules config h links trees).result = .ok results) {r : FileResult}
    (hr : r ∈ results) :
    ∃ tree ∈ trees, ∃ t : Traversal, RuleSet.validate rules = .ok () ∧
      (building rules config links tree ⟨h, []⟩).1 = .ok () ∧
      traversed rules config links tree ⟨h, []⟩ = (none, t) ∧
      r = fileResult config tree t
        (filterFindings config tree t.session.reporter.findings) := by
  rcases hvalid : RuleSet.validate rules with f | _
  · simp only [analyzeTrees, hvalid] at hresults
    cases hresults
  · simp only [analyzeTrees, hvalid] at hresults
    rw [result_analyzeFiles trees (.empty h), Except.mapM_eq_ok_iff] at hresults
    obtain ⟨i, hi, rfl⟩ := List.getElem_of_mem hr
    have hfile := hresults.get (by rw [hresults.length_eq]; exact hi) hi
    refine ⟨_, List.get_mem trees ⟨i, by rw [hresults.length_eq]; exact hi⟩, ?_⟩
    generalize trees.get _ = tree at hfile ⊢
    rcases hone : (analyzeFile rules config links tree ⟨h, []⟩).result with f | r' <;>
      rw [hone] at hfile
    · cases hfile
    · obtain ⟨hbuild, t, hended, rfl⟩ := exists_traversal_of_result hone
      exact ⟨t, rfl, hbuild, hended, (Except.ok.inj hfile).symm⟩

/-- **Files are independent.**  The analysis of several files, at least one, has results exactly if
the analysis of each file by itself has, and they are the same; it fails exactly if one of those
fails, with the fault of the first that does.  Without any file the rules are still checked. -/
theorem analyzeTrees_eq_each (rules : List Rule) (config : Config) (h : Hierarchy)
    (links : Links) :
    (∀ first rest results,
      (analyzeTrees rules config h links (first :: rest)).result = .ok results ↔
        List.Forall₂ (fun tree r => (analyzeTree rules config h links tree).result = .ok r)
          (first :: rest) results) ∧
    (∀ first rest f,
      (analyzeTrees rules config h links (first :: rest)).result = .error f ↔
        ∃ before tree after, first :: rest = before ++ tree :: after ∧
          (∀ t ∈ before, ∃ r, (analyzeTree rules config h links t).result = .ok r) ∧
          (analyzeTree rules config h links tree).result = .error f) ∧
    (analyzeTrees rules config h links []).result =
      (RuleSet.validate rules).map fun _ => [] := by
  refine ⟨?_, ?_, ?_⟩
  · intro first rest results
    rw [result_analyzeTrees_cons]
    exact Except.mapM_eq_ok_iff
  · intro first rest f
    rw [result_analyzeTrees_cons]
    exact Except.mapM_eq_error_iff
  · rw [result_analyzeTrees]
    cases RuleSet.validate rules <;> rfl

end Analysis

namespace Analysis

/-- Something without a card, which no rule set may hold. -/
def bareRule : Rule where
  object := .string "bare"
  card := none
  setup := none

attribute [local instance] Machine.small

/-- That no file fails by itself is not enough for results: without any file the rules are checked
too. -/
theorem not_forall_results_of_each :
    ¬ ∀ rules config h links trees,
      (∀ tree ∈ trees, ∃ r, (analyzeTree rules config h links tree).result = .ok r) →
        ∃ results, (analyzeTrees rules config h links trees).result = .ok results := by
  intro hall
  obtain ⟨results, hresults⟩ := hall [bareRule] Config.default Hierarchy.standard ∅ [] (by simp)
  cases hresults

/-! ### Rules with one handler -/

/-- A kind with an empty message, with the name of its rule as identifier. -/
def plainKind (rule : String) : DiagnosticKind := ⟨rule, rule, "", "warn", none⟩

/-- An empty template has no piece. -/
lemma pieces_plainKind (rule : String) : (plainKind rule).pieces = [] := by
  rw [DiagnosticKind.pieces, plainKind, String.toList_empty, Template.pieces]

/-- A rule with one kind, which registers by a script. -/
def scriptRule (name : String) (script : Script) : Rule where
  object := .string name
  card := some ⟨name, name, .errors, [.kind (plainKind name)], name⟩
  setup := some fun _ => script

/-- A rule that adds one handler for blocks. -/
def blockRule (name : String) (handler : Handler) : Rule :=
  scriptRule name (.addAll [⟨.string "block", name, some handler⟩])

/-- An empty template is read without a fault. -/
lemma withPieces_plainKind {α : Type} (rule : String)
    (next : List TemplatePiece → Except Fault α) : (plainKind rule).withPieces next = next [] := by
  have hread : Template.tooLong? Value.digitLimit (plainKind rule).pieces = none := by
    rw [pieces_plainKind]
    rfl
  rw [DiagnosticKind.withPieces_of_none hread, pieces_plainKind]

section

variable [Machine]

/-- An empty template uses every argument, expects none, and makes an empty message. -/
lemma isWellFormed_plainKind (rule : String) :
    (plainKind rule).isWellFormed = .ok true ∧ (plainKind rule).arity = .ok 0 ∧
      (plainKind rule).format [] = .ok "" := by
  rw [DiagnosticKind.isWellFormed, DiagnosticKind.arity, DiagnosticKind.format,
    withPieces_plainKind, withPieces_plainKind, pieces_plainKind]
  exact ⟨rfl, rfl, rfl⟩

/-- A report of such a kind, which the rule may report, is taken on a file with line starts. -/
lemma exists_answer_plainKind {r : Reporter} (hstarts : r.tree.lineStarts.size ≠ 0)
    {rule kind : String} {span : Span}
    (hdeclared : r.vocabularyFault? ⟨rule, span, plainKind kind, []⟩ = none) :
    ∃ answer, (r.report ⟨rule, span, plainKind kind, []⟩).1 = .ok answer := by
  obtain ⟨-, harity, hformat⟩ := isWellFormed_plainKind kind
  obtain ⟨l, hl⟩ := Traversal.exists_location hstarts span.start
  have hrefusal : r.refusal? ⟨rule, span, plainKind kind, []⟩ = none := by
    rw [Reporter.refusal?, harity]
    exact hdeclared
  have hfinding : r.finding ⟨rule, span, plainKind kind, []⟩ =
      .ok (r.findingOf ⟨rule, span, plainKind kind, []⟩ "" l) :=
    (r.finding_eq_ok_iff _).2 ⟨l, "", hl, hformat, rfl⟩
  rw [Reporter.report, hrefusal]
  simp only [Reporter.record, hfinding]
  split
  · exact ⟨none, rfl⟩
  · split
    · exact ⟨none, rfl⟩
    · exact ⟨_, rfl⟩

/-- Such a report makes a finding if its key is new, unless there is no room for it. -/
lemma report_plainKind_cases {r : Reporter} (hstarts : r.tree.lineStarts.size ≠ 0)
    (hseen : r.seen = []) {rule kind : String} {span : Span}
    (hdeclared : r.vocabularyFault? ⟨rule, span, plainKind kind, []⟩ = none) :
    (r.isFull = true ∧ r.report ⟨rule, span, plainKind kind, []⟩ =
      (.ok none, { r with dropped := r.dropped + 1 })) ∨
    (r.isFull = false ∧ ∃ f, r.report ⟨rule, span, plainKind kind, []⟩ =
        (.ok (some f), r.withFinding f) ∧
      r.finding ⟨rule, span, plainKind kind, []⟩ = .ok f) := by
  obtain ⟨answer, hanswer⟩ := exists_answer_plainKind hstarts hdeclared
  rcases r.report_cases ⟨rule, span, plainKind kind, []⟩ with
    ⟨g, heq⟩ | ⟨hmem, -⟩ | ⟨-, hfull, heq⟩ | ⟨-, hopen, f, hf, heq⟩
  · rw [heq] at hanswer
    cases hanswer
  · rw [hseen] at hmem
    cases hmem
  · exact .inl ⟨hfull, heq⟩
  · exact .inr ⟨hopen, f, heq, hf⟩

/-- With room for it, such a report makes a finding. -/
lemma exists_report_plainKind {r : Reporter} (hstarts : r.tree.lineStarts.size ≠ 0)
    (hseen : r.seen = []) (hopen : r.isFull = false) {rule kind : String} {span : Span}
    (hdeclared : r.vocabularyFault? ⟨rule, span, plainKind kind, []⟩ = none) :
    ∃ f, r.report ⟨rule, span, plainKind kind, []⟩ = (.ok (some f), r.withFinding f) ∧
      r.finding ⟨rule, span, plainKind kind, []⟩ = .ok f := by
  rcases report_plainKind_cases hstarts hseen hdeclared with ⟨hfull, -⟩ | ⟨-, hmade⟩
  · rw [hopen] at hfull
    cases hfull
  · exact hmade

lemma isSound_scriptRule (name : String) (script : Script) : (scriptRule name script).IsSound := by
  refine ⟨_, rfl, rfl, List.cons_ne_nil _ _, ?_⟩
  rw [List.forall_mem_singleton]
  exact ⟨plainKind name, rfl, rfl, (isWellFormed_plainKind name).1⟩

lemma sound_scriptRule (name : String) (script : Script) :
    RuleSet.Sound [scriptRule name script] where
  rule := List.forall_mem_singleton.2 (isSound_scriptRule name script)
  names := List.nodup_singleton name
  ids := List.nodup_singleton name

/-- A rule whose script returns registers without a fault. -/
lemma enroll_scriptRule {name : String} {script : Script} {links : Links} {b : RuleSet.Building}
    {after : Session} (context : Context)
    (hrun : script.run name links (RuleSet.declared (scriptRule name script) b.session) =
      (none, after)) :
    (RuleSet.enroll context links (scriptRule name script) b).1 = .ok () ∧
      (RuleSet.enroll context links (scriptRule name script) b).2.session = after := by
  have hcard : (scriptRule name script).card =
      some ⟨name, name, .errors, [.kind (plainKind name)], name⟩ := rfl
  have hsetup : (scriptRule name script).setup = some fun _ => script := rfl
  exact RuleSet.enroll_of_returned hcard hsetup (List.forall_mem_singleton.2 ⟨_, rfl⟩) hrun

/-- A rule whose script returns and adds no handler visits no node, and the findings of a file are
those that it makes when it registers. -/
lemma result_scriptRule {name : String} {script : Script} {config : Config} {h : Hierarchy}
    {links : Links} {tree : Tree} {after : Session}
    (hrun : script.run name links (RuleSet.declared (scriptRule name script)
      (RuleSet.opening [scriptRule name script] (reporterFor config tree) ⟨h, []⟩).session) =
        (none, after))
    (hnone : ∀ kind, after.registry.processorsFor kind = []) :
    (building [scriptRule name script] config links tree ⟨h, []⟩).1 = .ok () ∧
      plan [scriptRule name script] config links tree ⟨h, []⟩ = [] ∧
      ∃ r, (analyzeTree [scriptRule name script] config h links tree).result = .ok r ∧
        r.findings = (filterFindings config tree after.reporter.findings).findings := by
  obtain ⟨henroll, hsession⟩ := enroll_scriptRule (contextFor config tree) hrun
  rw [← RuleSet.enrollAll_singleton] at henroll hsession
  have hbuild : (building [scriptRule name script] config links tree ⟨h, []⟩).1 = .ok () :=
    RuleSet.buildRegistry_of_ok.1.2 henroll
  have hbuilt : built [scriptRule name script] config links tree ⟨h, []⟩ = after.freeze := by
    rw [(built_eq hbuild).2, hsession]
  have hplan : plan [scriptRule name script] config links tree ⟨h, []⟩ = [] := by
    rw [plan, hbuilt, Traversal.agenda]
    simp [hnone]
  have htraversed : traversed [scriptRule name script] config links tree ⟨h, []⟩ =
      (none, { session := after.freeze }) := by
    rw [traversed, hplan, hbuilt, Traversal.performAll]
  exact ⟨hbuild, hplan, _, result_analyzeTree_of_returned
    ((RuleSet.validate_eq_ok_iff _).2 (sound_scriptRule name script)) hbuild htraversed, rfl⟩

/-- A rule of which a file has a result registers by a script that returns. -/
lemma run_of_result_scriptRule {name : String} {script : Script} {config : Config} {h : Hierarchy}
    {links : Links} {tree : Tree} {r : FileResult}
    (hr : (analyzeTree [scriptRule name script] config h links tree).result = .ok r) :
    (script.run name links (RuleSet.declared (scriptRule name script)
      (RuleSet.opening [scriptRule name script] (reporterFor config tree) ⟨h, []⟩).session)).1 =
        none := by
  have hvalid := (RuleSet.validate_eq_ok_iff _).2 (sound_scriptRule name script)
  rcases hbuild : (building [scriptRule name script] config links tree ⟨h, []⟩).1 with f | _
  · rw [result_analyzeTree_of_unbuilt hvalid hbuild] at hr
    cases hr
  · obtain ⟨henroll, -⟩ := built_eq hbuild
    rw [RuleSet.enrollAll_singleton] at henroll
    obtain ⟨card, setup, hcard, hsetup, -, hrun, -⟩ := RuleSet.enroll_of_ok henroll
    cases hcard
    cases hsetup
    rw [hrun]

lemma isSound_blockRule (name : String) (handler : Handler) : (blockRule name handler).IsSound :=
  isSound_scriptRule name _

lemma sound_blockRule (name : String) (handler : Handler) :
    RuleSet.Sound [blockRule name handler] :=
  sound_scriptRule name _

/-- Such a rule registers its handler. -/
lemma building_blockRule (name : String) (handler : Handler) (config : Config) (links : Links)
    (tree : Tree) (m : Supertypes) :
    (building [blockRule name handler] config links tree m).1 = .ok () ∧ ∃ registry : Registry,
      built [blockRule name handler] config links tree m =
        ⟨(reporterFor config tree).declare name [name], registry, m⟩ ∧
      registry.frozen = true ∧
      ∀ kind, registry.processorsFor kind =
        if kind = .block then [⟨name, name, handler⟩] else [] := by
  have hkinds : ∀ k ∈ [DeclaredKind.kind (plainKind name)], ∃ code, k = .kind code :=
    List.forall_mem_singleton.2 ⟨_, rfl⟩
  have hregs : ∀ reg ∈ [(⟨.string "block", name, some handler⟩ : Registration)],
      reg.IsAccepted [name] :=
    List.forall_mem_singleton.2 ⟨⟨.block, rfl⟩, ⟨_, rfl⟩, List.mem_singleton_self name⟩
  have hcard : (blockRule name handler).card =
      some ⟨name, name, .errors, [.kind (plainKind name)], name⟩ := rfl
  obtain ⟨hbuild, registry, hsession, hfrozen, hprocessors⟩ := RuleSet.buildRegistry_addAll hcard
    hkinds rfl (contextFor config tree) hregs links (reporterFor config tree) m
  refine ⟨hbuild, registry, hsession, hfrozen, fun kind => ?_⟩
  have hkind : Registry.kindOf? (.string "block") = some .block := rfl
  rw [hprocessors, List.filterMap_cons, List.filterMap_nil, Registration.processor?, hkind]
  by_cases hblock : kind = .block
  · rw [hblock, if_pos rfl, if_pos rfl]
    rfl
  · rw [if_neg hblock, if_neg (by simpa using Ne.symm hblock)]

/-- A file with one block is visited by one call of such a rule, which decides how the traversal
ends. -/
lemma traversed_blockRule (name : String) (handler : Handler) (config : Config) (links : Links)
    (m : Supertypes) {tree : Tree} (hroot : tree.root = Traversal.blockFile.root)
    (hstarts : tree.lineStarts.size ≠ 0) :
    plan [blockRule name handler] config links tree m =
        [⟨Traversal.blockFile.root, ⟨name, name, handler⟩⟩] ∧
      (traversed [blockRule name handler] config links tree m).1 =
        (Traversal.recordOf (contextFor config tree) links
          ⟨Traversal.blockFile.root, ⟨name, name, handler⟩⟩
          (built [blockRule name handler] config links tree m)).ending? config.strict.isTruthy := by
  obtain ⟨-, registry, hsession, -, hprocessors⟩ :=
    building_blockRule name handler config links tree m
  have hplan : plan [blockRule name handler] config links tree m =
      [⟨Traversal.blockFile.root, ⟨name, name, handler⟩⟩] := by
    rw [plan, hsession, hroot, Traversal.preorder_blockFile, Traversal.agenda, List.flatMap_cons,
      hprocessors]
    rfl
  have hcontext : (contextFor config tree).tree.lineStarts.size ≠ 0 := hstarts
  refine ⟨hplan, ?_⟩
  rw [traversed, Traversal.performAll_fst hcontext, hplan, Traversal.history, Traversal.history,
    List.findSome?_singleton]

/-- Such a rule has a result of such a file exactly if the call does not end the traversal. -/
lemma exists_result_blockRule_iff (name : String) (handler : Handler) (config : Config)
    (h : Hierarchy) (links : Links) {tree : Tree} (hroot : tree.root = Traversal.blockFile.root)
    (hstarts : tree.lineStarts.size ≠ 0) :
    (∃ r, (analyzeTree [blockRule name handler] config h links tree).result = .ok r) ↔
      (Traversal.recordOf (contextFor config tree) links
        ⟨Traversal.blockFile.root, ⟨name, name, handler⟩⟩
        (built [blockRule name handler] config links tree ⟨h, []⟩)).ending?
          config.strict.isTruthy = none := by
  have hvalid := (RuleSet.validate_eq_ok_iff _).2 (sound_blockRule name handler)
  obtain ⟨hbuild, -⟩ := building_blockRule name handler config links tree ⟨h, []⟩
  obtain ⟨-, hended⟩ := traversed_blockRule name handler config links ⟨h, []⟩ hroot hstarts
  rw [← hended]
  rcases htraversed : traversed [blockRule name handler] config links tree ⟨h, []⟩ with ⟨_ | f, t⟩
  · exact ⟨fun _ => rfl, fun _ => ⟨_, result_analyzeTree_of_returned hvalid hbuild htraversed⟩⟩
  · rw [result_analyzeTree_of_ended hvalid hbuild htraversed]
    simp

omit [Machine] in
/-- The file with one block has no text, so no finding is taken out. -/
lemma filterFindings_blockFile (config : Config) (findings : List Finding) :
    filterFindings config Traversal.blockFile findings = ⟨findings, 0, none, []⟩ := by
  have hnone : commentedText? config Traversal.blockFile = none := by
    unfold commentedText?
    split <;> rfl
  rw [filterFindings, hnone]

/-- The failures and the findings of such a rule on this file are those of its call. -/
lemma result_blockRule {name : String} {handler : Handler} {config : Config} {h : Hierarchy}
    {links : Links} {r : FileResult}
    (hr : (analyzeTree [blockRule name handler] config h links Traversal.blockFile).result =
      .ok r) :
    let record := Traversal.recordOf (contextFor config Traversal.blockFile) links
      ⟨Traversal.blockFile.root, ⟨name, name, handler⟩⟩
      (built [blockRule name handler] config links Traversal.blockFile ⟨h, []⟩)
    r.failures = (record.failure? Traversal.blockFile).toList ∧
      r.findings = record.events.filterMap Event.finding? ∧ r.suppressed = 0 := by
  intro record
  have hvalid := (RuleSet.validate_eq_ok_iff _).2 (sound_blockRule name handler)
  obtain ⟨hbuild, registry, hbuilt, -⟩ :=
    building_blockRule name handler config links Traversal.blockFile ⟨h, []⟩
  have hempty : (built [blockRule name handler] config links Traversal.blockFile
      ⟨h, []⟩).reporter.findings = [] := by
    rw [hbuilt]
    rfl
  obtain ⟨hplan, -⟩ := traversed_blockRule name handler config links ⟨h, []⟩ rfl Nat.one_ne_zero
  have hhistory : Traversal.history (contextFor config Traversal.blockFile) links
      (plan [blockRule name handler] config links Traversal.blockFile ⟨h, []⟩)
      (built [blockRule name handler] config links Traversal.blockFile ⟨h, []⟩) = [record] := by
    rw [hplan, Traversal.history, Traversal.history]
  have hending :=
    (exists_result_blockRule_iff name handler config h links rfl Nat.one_ne_zero).1 ⟨r, hr⟩
  have hstarts : (contextFor config Traversal.blockFile).tree.lineStarts.size ≠ 0 := Nat.one_ne_zero
  have hpasses : ∀ r ∈ [record], r.ending? config.strict.isTruthy = none :=
    List.forall_mem_singleton.2 hending
  rw [← hhistory] at hpasses
  obtain ⟨warnings, hrun⟩ := Traversal.performAll_eq_of_none hstarts _
    { session := built [blockRule name handler] config links Traversal.blockFile ⟨h, []⟩ } hpasses
  rw [result_analyzeTree_of_returned hvalid hbuild hrun] at hr
  cases hr
  have hone : ∀ (g : Record → Option Failure) (a : Record), [a].filterMap g = (g a).toList := by
    intro g a
    cases hga : g a <;> simp [hga]
  rw [filterFindings_blockFile]
  refine ⟨?_, ?_, rfl⟩
  · show [] ++ List.filterMap _ _ = _
    rw [hhistory, List.nil_append]
    exact hone _ _
  · show (Traversal.sessionAfter _ _ _ _).reporter.findings = _
    rw [hplan, Traversal.sessionAfter, Traversal.sessionAfter, Script.findings_run]
    show (built _ config links Traversal.blockFile ⟨h, []⟩).reporter.findings ++ _ = _
    rw [hempty]
    rfl

/-- If the call returns, there is a result with the findings that the handler makes. -/
lemma exists_result_of_run (name : String) (handler : Handler) {config : Config} {h : Hierarchy}
    {links : Links} {script : Script} {after : Session}
    (hscript : handler (contextFor config Traversal.blockFile)
      (links.site Traversal.blockFile.root) = script)
    (hrun : script.run name links (built [blockRule name handler] config links Traversal.blockFile
      ⟨h, []⟩) = (none, after)) :
    ∃ r, (analyzeTree [blockRule name handler] config h links Traversal.blockFile).result = .ok r ∧
      r.failures = [] ∧ r.findings = (script.events name links (built [blockRule name handler]
        config links Traversal.blockFile ⟨h, []⟩)).filterMap Event.finding? := by
  subst hscript
  have hfault := Traversal.fault_recordOf
    (c := ⟨Traversal.blockFile.root, ⟨name, name, handler⟩⟩) hrun
  obtain ⟨r, hr⟩ :=
    (exists_result_blockRule_iff name handler config h links rfl Nat.one_ne_zero).2 (by
      rw [Record.ending?, hfault])
  obtain ⟨hfailures, hfindings, -⟩ := result_blockRule hr
  rw [Record.failure?, hfault] at hfailures
  exact ⟨r, hr, hfailures, hfindings⟩

end

end Analysis

end TreeLint
