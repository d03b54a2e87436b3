/-
Registration faults come before any handler is called.

The checks of the rules and the building of the first registry come before the first
call, and if the rules register alike for every file then every file builds the same
registry.  So a registration fault ends an analysis either before any handler is called
or not at all, and none comes out of a handler: `Analysis.analyzeTrees_registration`.

A template whose greatest index is too large cannot be checked.  The rules are refused
then as well, but not with a registration fault: `Analysis.not_forall_refused_as_registration`.
-/
import TreeLint.Proofs.Rule.Refusal
import TreeLint.Proofs.Run.Files
namespace TreeLint

/-! ### Rules that register alike -/

/-- Sessions of two files in which the same has been declared and registered. -/
structure Session.Matches (s s' : Session) : Prop where
  registry_eq : s'.registry = s.registry
  strict_eq : s'.reporter.strict = s.reporter.strict
  severities_eq : s'.reporter.severities = s.reporter.severities
  limit_eq : s'.reporter.limit = s.reporter.limit
  declared_eq : s'.reporter.declared = s.reporter.declared

section

variable {s s' : Session}

lemma Session.Matches.declare (hs : s.Matches s') (rule : String) (ids : List String) :
    (s.declare rule ids).Matches (s'.declare rule ids) where
  registry_eq := hs.registry_eq
  strict_eq := hs.strict_eq
  severities_eq := hs.severities_eq
  limit_eq := hs.limit_eq
  declared_eq := congrArg ((rule, ids) :: ·) hs.declared_eq

variable [Machine]

/-- After scripts that leave the same handlers, sessions match if they did before. -/
lemma Session.Matches.run (hs : s.Matches s') (owner : String) (links : Links)
    (script script' : Script)
    (hregistry : (script'.run owner links s').2.registry = (script.run owner links s).2.registry) :
    (script.run owner links s).2.Matches (script'.run owner links s').2 := by
  have hleft := RuleSet.run_preserves_of_forall (RuleSet.resembles_invariant s.reporter) owner links
    script ⟨rfl, rfl, rfl, rfl⟩
  have hright := RuleSet.run_preserves_of_forall (RuleSet.resembles_invariant s'.reporter) owner
    links script' ⟨rfl, rfl, rfl, rfl⟩
  refine ⟨hregistry, ?_, ?_, ?_, ?_⟩
  · rw [hright.strict_eq, hleft.strict_eq, hs.strict_eq]
  · rw [hright.severities_eq, hleft.severities_eq, hs.severities_eq]
  · rw [hright.limit_eq, hleft.limit_eq, hs.limit_eq]
  · rw [RuleSet.run_preserves_of_forall (RuleSet.declared_invariant s'.reporter.declared) owner
      links script' rfl, RuleSet.run_preserves_of_forall
      (RuleSet.declared_invariant s.reporter.declared) owner links script rfl, hs.declared_eq]

end

section

variable [Machine]

/-- Whether a rule registers the same way in some contexts: after the same declarations and handlers
it fails in the same way, or adds the same handlers. -/
def Rule.RegistersAlike (links : Links) (contexts : List Context) (r : Rule) : Prop :=
  ∀ card setup, r.card = some card → r.setup = some setup →
    ∀ context ∈ contexts, ∀ context' ∈ contexts, ∀ s s' : Session, s.Matches s' →
      ((setup context').run card.name links s').1 = ((setup context).run card.name links s).1 ∧
        ((setup context').run card.name links s').2.registry =
          ((setup context).run card.name links s).2.registry

/-- Handlers from a list are added to equal registries alike. -/
lemma Script.run_addAll_alike (owner : String) (links : Links) (regs : List Registration)
    {s s' : Session} (h : s'.registry = s.registry) :
    ((addAll regs).run owner links s').1 = ((addAll regs).run owner links s).1 ∧
      ((addAll regs).run owner links s').2.registry =
        ((addAll regs).run owner links s).2.registry := by
  induction regs generalizing s s' with
  | nil => exact ⟨rfl, h⟩
  | cons reg rest ih =>
    rw [addAll, run, run, h]
    rcases s.registry.add owner _ with f | after
    · exact ⟨rfl, h⟩
    · exact ih rfl

/-- A rule that adds the same handlers in all contexts registers alike. -/
lemma Rule.registersAlike_addAll {r : Rule} {regs : List Registration}
    (hsetup : r.setup = some fun _ => .addAll regs) (links : Links) (contexts : List Context) :
    r.RegistersAlike links contexts := by
  intro card setup _ hsome context _ context' _ s s' hs
  rw [hsetup] at hsome
  cases hsome
  exact Script.run_addAll_alike card.name links regs hs.registry_eq

namespace RuleSet

variable {rule : Rule} {rules : List Rule} {links : Links} {contexts : List Context}
  {context context' : Context} {b b' : Building}

lemma enroll_matches (hrule : rule.RegistersAlike links contexts) (hcontext : context ∈ contexts)
    (hcontext' : context' ∈ contexts) (h : b.session.Matches b'.session) :
    (enroll context' links rule b').1 = (enroll context links rule b).1 ∧
      (enroll context links rule b).2.session.Matches
        (enroll context' links rule b').2.session := by
  unfold enroll
  rcases hcard : rule.card with _ | card
  · exact ⟨rfl, h⟩
  · rcases hids : card.codeIds with f | ids
    · simp only [hids]
      exact ⟨trivial, h⟩
    · have hdeclared := h.declare card.name ids
      rcases hsetup : rule.setup with _ | setup
      · simp only [hids]
        exact ⟨trivial, hdeclared⟩
      · obtain ⟨hend, hregistry⟩ := hrule card setup hcard hsetup context hcontext context'
          hcontext' _ _ hdeclared
        have hafter := hdeclared.run card.name links _ _ hregistry
        simp only [hids]
        rcases h₁ : (setup context).run card.name links (b.session.declare card.name ids) with
          ⟨e₁, s₁⟩
        rcases h₂ : (setup context').run card.name links (b'.session.declare card.name ids) with
          ⟨e₂, s₂⟩
        rw [h₁, h₂] at hend hafter
        subst hend
        cases e₂ <;> exact ⟨rfl, hafter⟩

/-- Rules that register alike fail alike, or leave the same handlers. -/
lemma enrollAll_matches (hrules : ∀ rule ∈ rules, rule.RegistersAlike links contexts)
    (hcontext : context ∈ contexts) (hcontext' : context' ∈ contexts)
    (h : b.session.Matches b'.session) :
    (enrollAll context' links rules b').1 = (enrollAll context links rules b).1 ∧
      (enrollAll context links rules b).2.session.Matches
        (enrollAll context' links rules b').2.session := by
  induction rules generalizing b b' with
  | nil => exact ⟨rfl, h⟩
  | cons rule rest ih =>
    obtain ⟨hrule, hrest⟩ := List.forall_mem_cons.1 hrules
    obtain ⟨hend, hafter⟩ := enroll_matches hrule hcontext hcontext' h
    rw [enrollAll, enrollAll]
    rcases h₁ : enroll context links rule b with ⟨e₁, c₁⟩
    rcases h₂ : enroll context' links rule b' with ⟨e₂, c₂⟩
    rw [h₁, h₂] at hend hafter
    subst hend
    rcases e₂ with f | _
    · exact ⟨rfl, hafter⟩
    · exact ih hrest hafter

/-- What a rule that fails to register ends the analysis with: a registration fault, or the refusal
of a frozen registry that the rule passed on, or that its fault cannot be told. -/
lemma faultClass_setupFault (rule : String) (f : Fault) :
    (setupFault rule f).faultClass = .ruleRegistration ∨
      (f.faultClass = .registryFrozen ∧ setupFault rule f = f) ∨
      ∃ why, f.message = .error why ∧ setupFault rule f = .text why := by
  unfold setupFault
  by_cases hregistration : f.isRegistration = true
  · rw [if_pos hregistration]
    rw [Fault.isRegistration] at hregistration
    cases hclass : f.faultClass <;> rw [hclass] at hregistration <;> first
      | exact .inl rfl
      | exact .inr (.inl ⟨rfl, rfl⟩)
      | cases hregistration
  · rw [if_neg hregistration]
    rcases f.message with why | cause
    · exact .inr (.inr ⟨why, rfl, rfl⟩)
    · exact .inl rfl

end RuleSet

/-! ### No registration fault comes out of a traversal -/

/-- Whether a fault is that another one cannot be told. -/
def Fault.IsUntold (f : Fault) : Prop :=
  ∃ (g : Fault) (why : TextFault), (g.shown = .error why ∨ g.recorded = .error why) ∧ f = .text why

namespace Traversal

variable {strict : Bool} {context : Context} {links : Links}

/-- A traversal ends early with a programming fault, or because a failure cannot be located or
told. -/
lemma isRegistration_of_noteFault {tree : Tree} {p : Processor} {n : Node} {t : Traversal}
    {ended : Option Fault} {f : Fault} (h : (noteFault strict tree p n t ended).1 = some f) :
    f.isRegistration = false ∨ f.IsUntold := by
  unfold noteFault at h
  rcases ended with _ | g
  · cases h
  · simp only at h
    split_ifs at h with hprogramming
    · cases h
      rw [Bool.and_eq_true] at hprogramming
      have hclass := hprogramming.2
      rw [Fault.isProgramming] at hclass
      rw [Fault.isRegistration]
      cases hfault : f.faultClass <;> rw [hfault] at hclass <;> first
        | exact .inl rfl
        | cases hclass
    · rcases hlocation : tree.location n.span.start with g' | l <;> rw [hlocation] at h
      · cases h
        unfold Tree.location at hlocation
        split at hlocation <;> cases hlocation
        exact .inl rfl
      · simp only at h
        rcases hwarning : failureWarning tree p n l g with why | warning <;> rw [hwarning] at h
        · cases h
          refine .inr ⟨g, why, .inl ?_, rfl⟩
          unfold failureWarning at hwarning
          rcases hshown : g.shown with why' | s <;> rw [hshown] at hwarning <;> cases hwarning
          rfl
        · simp only at h
          rcases hfailure : failureOf tree p n g with why | failure <;>
            rw [hfailure] at h <;> cases h
          refine .inr ⟨g, why, .inr ?_, rfl⟩
          unfold failureOf at hfailure
          rcases hrecorded : g.recorded with why' | s <;> rw [hrecorded] at hfailure <;>
            cases hfailure
          rfl

lemma isRegistration_of_performAll {calls : List Call} {t : Traversal} {f : Fault}
    (h : (performAll strict context links calls t).1 = some f) :
    f.isRegistration = false ∨ f.IsUntold := by
  induction calls generalizing t with
  | nil => cases h
  | cons c rest ih =>
    rw [performAll] at h
    rcases hinvoke : invoke strict context links c.node c.processor t with ⟨_ | g, t'⟩ <;>
      rw [hinvoke] at h
    · exact ih h
    · cases h
      have hended : (invoke strict context links c.node c.processor t).1 = some f := by rw [hinvoke]
      exact isRegistration_of_noteFault hended

end Traversal

namespace Analysis

variable {rules : List Rule} {config : Config} {links : Links} {tree : Tree} {h : Hierarchy}
  {m : Supertypes} {f : Fault}

lemma isRegistration_of_analyzeFile (hbuild : (building rules config links tree m).1 = .ok ())
    (hresult : (analyzeFile rules config links tree m).result = .error f) :
    f.isRegistration = false ∨ f.IsUntold := by
  rcases hended : traversed rules config links tree m with ⟨_ | g, t⟩
  · rw [(analyzeFile_of_returned hbuild hended).1] at hresult
    cases hresult
  · rw [(analyzeFile_of_ended hbuild hended).1] at hresult
    cases hresult
    exact Traversal.isRegistration_of_performAll (by rw [← traversed, hended])

/-- Once the registries of all files can be built, no registration fault ends the analysis. -/
lemma isRegistration_of_analyzeFiles {trees : List Tree}
    (hbuild : ∀ tree ∈ trees, ∀ m, (building rules config links tree m).1 = .ok ())
    (hresult : (analyzeFiles rules config links trees m).result = .error f) :
    f.isRegistration = false ∨ f.IsUntold := by
  induction trees generalizing m with
  | nil => cases hresult
  | cons tree rest ih =>
    obtain ⟨hfirst, hrest⟩ := List.forall_mem_cons.1 hbuild
    rw [analyzeFiles] at hresult
    rcases hone : (analyzeFile rules config links tree m).result with g | r
    · rw [Outcome.bind_of_error hone] at hresult
      cases hresult
      exact isRegistration_of_analyzeFile (hfirst m) hone
    · rw [Outcome.bind_of_ok hone] at hresult
      rcases hmore : (analyzeFiles rules config links rest r.2).result with g | results
      · rw [Outcome.bind_of_error hmore] at hresult
        cases hresult
        exact ih hrest hmore
      · rw [Outcome.bind_of_ok hmore] at hresult
        cases hresult

/-! ### Before the first call -/

/-- A file whose registry cannot be built ends the analysis before any handler is called on it. -/
lemma analyzeFiles_of_unbuilt (hbuild : (building rules config links tree m).1 = .error f)
    (rest : List Tree) :
    (analyzeFiles rules config links (tree :: rest) m).result = .error f ∧
      (analyzeFiles rules config links (tree :: rest) m).journal.trace = [] := by
  have hfile := analyzeFile_of_unbuilt hbuild
  rw [analyzeFiles, Outcome.bind_of_error hfile.1]
  exact ⟨rfl, hfile.2⟩

/-- Rules that register alike build the same registry for every file. -/
lemma building_matches {contexts : List Context}
    (hrules : ∀ rule ∈ rules, rule.RegistersAlike links contexts) {tree' : Tree} {m' : Supertypes}
    (hcontext : contextFor config tree ∈ contexts) (hcontext' : contextFor config tree' ∈ contexts)
    (hbuild : (building rules config links tree m).1 = .ok ()) :
    (building rules config links tree' m').1 = .ok () ∧
      (built rules config links tree' m').registry =
        (built rules config links tree m).registry := by
  have hstart : (RuleSet.opening rules (reporterFor config tree) m).session.Matches
      (RuleSet.opening rules (reporterFor config tree') m').session := ⟨rfl, rfl, rfl, rfl, rfl⟩
  obtain ⟨hend, hafter⟩ := RuleSet.enrollAll_matches hrules hcontext hcontext' hstart
  obtain ⟨henroll, hbuilt⟩ := built_eq hbuild
  have hbuild' : (building rules config links tree' m').1 = .ok () :=
    RuleSet.buildRegistry_of_ok.1.2 (hend.trans henroll)
  obtain ⟨-, hbuilt'⟩ := built_eq hbuild'
  rw [hbuilt, hbuilt', Session.registry_freeze, Session.registry_freeze, hafter.registry_eq]
  exact ⟨hbuild', rfl⟩

/-- **Registration faults come before any handler is called.**  Let rules analyse at least one file.

If the rules are refused by the checks, the analysis fails with the fault of the checks, and no
handler is called; it is a registration fault that lists the problems exactly if everything in the
list can be checked.

If they pass the checks and one of them fails to register for the first file, after those before it
have registered, then no handler is called either, and this rule decides the fault: a registration
fault, unless the rule passed on the refusal of a frozen registry or its fault cannot be told.  A
rule that adds handlers from a list fails at the first of them that is not for a node kind, cannot
be called, or is added under a name outside the list of rules.

Otherwise, and only then, the registry of the first file is built.  Then, if the rules register the
same way for every file, every file builds its registry, and it is the same one; and no registration
fault ends the analysis, whatever the handlers do, unless it is that a fault cannot be told. -/
theorem analyzeTrees_registration (rules : List Rule) (config : Config) (h : Hierarchy)
    (links : Links) (first : Tree) (rest : List Tree) :
    let outcome := analyzeTrees rules config h links (first :: rest)
    let context := contextFor config first
    let enrolled := fun before => RuleSet.enrollAll context links before
      (RuleSet.opening rules (reporterFor config first) ⟨h, []⟩)
    let opens := (building rules config links first ⟨h, []⟩).1 = .ok ()
    (∀ f, RuleSet.validate rules = .error f →
      outcome.result = .error f ∧ outcome.journal.trace = [] ∧
      ((∃ ps, f = .invalidRuleSet ps ∧ f.faultClass = .ruleRegistration) ↔
        ∀ r ∈ rules, r.IsCheckable)) ∧
    (RuleSet.validate rules = .ok () →
      (∀ before r after, rules = before ++ r :: after → (enrolled before).1 = .ok () →
        (∀ f, r.failure? context links (enrolled before).2.session = some f →
          ∃ g, outcome.result = .error g ∧ outcome.journal.trace = [] ∧
            g = RuleSet.setupFault (r.name?.getD "") f ∧
            (g.faultClass = .ruleRegistration ∨ (f.faultClass = .registryFrozen ∧ g = f) ∨
              ∃ why, f.message = .error why ∧ g = .text why)) ∧
        ∀ regs : Context → List Registration, r.setup = some (fun c => .addAll (regs c)) →
          r.failure? context links (enrolled before).2.session =
            (regs context).findSome? (Registration.refusal? (rules.filterMap Rule.name?))) ∧
      (opens ↔ ∀ before r after, rules = before ++ r :: after →
        r.failure? context links (enrolled before).2.session = none)) ∧
    (opens → (∀ r ∈ rules, r.RegistersAlike links ((first :: rest).map (contextFor config))) →
      (∀ tree ∈ rest, ∀ m, (building rules config links tree m).1 = .ok () ∧
        (built rules config links tree m).registry =
          (built rules config links first ⟨h, []⟩).registry) ∧
      (RuleSet.validate rules = .ok () →
        ∀ f, outcome.result = .error f → f.isRegistration = false ∨ f.IsUntold)) := by
  intro outcome context enrolled opens
  have hvalidated : RuleSet.validate rules = .ok () →
      outcome = analyzeFiles rules config links (first :: rest) ⟨h, []⟩ := by
    intro hvalid
    simp only [outcome, analyzeTrees, hvalid]
  have hopens : opens ↔ (enrolled rules).1 = .ok () := RuleSet.buildRegistry_of_ok.1
  refine ⟨?_, ?_, ?_⟩
  · intro f hf
    have houtcome : outcome = ⟨.error f, {}⟩ := by simp only [outcome, analyzeTrees, hf]
    rw [houtcome, ← RuleSet.exists_problems_iff hf]
    refine ⟨rfl, rfl, exists_congr fun ps => and_iff_left_of_imp ?_⟩
    rintro rfl
    rfl
  · intro hvalid
    have hsound := (RuleSet.validate_eq_ok_iff rules).1 hvalid
    rw [hvalidated hvalid]
    refine ⟨?_, hopens.trans (RuleSet.enrollAll_fst_eq_ok_iff hsound.rule)⟩
    intro before r after hrules hbefore
    have hr : r.IsSound := hsound.rule r (by rw [hrules]; simp)
    constructor
    · intro f hfailure
      have hfails := RuleSet.enrollAll_fst_of_failure after hr hbefore hfailure
      rw [← hrules] at hfails
      have hunbuilt : (building rules config links first ⟨h, []⟩).1 =
          .error (RuleSet.setupFault (r.name?.getD "") f) :=
        (RuleSet.buildRegistry_of_cards context links _ _ fun rule hrule =>
          (hsound.rule rule hrule).imp fun _ hcard => hcard.1).1.trans hfails
      obtain ⟨hresult, htrace⟩ := analyzeFiles_of_unbuilt hunbuilt rest
      exact ⟨_, hresult, htrace, rfl, RuleSet.faultClass_setupFault _ f⟩
    · intro regs hsetup
      obtain ⟨card, hcard, -⟩ := hr
      exact RuleSet.failure?_addAll hcard hsetup (RuleSet.accepts_enrollAll hbefore ⟨rfl, rfl⟩)
  · intro hbuild halike
    have hall : ∀ tree ∈ first :: rest, ∀ m, (building rules config links tree m).1 = .ok () ∧
        (built rules config links tree m).registry =
          (built rules config links first ⟨h, []⟩).registry := fun tree htree m =>
      building_matches halike (List.mem_map_of_mem List.mem_cons_self) (List.mem_map_of_mem htree)
        hbuild
    refine ⟨fun tree htree => hall tree (List.mem_cons_of_mem _ htree), ?_⟩
    intro hvalid f hf
    rw [hvalidated hvalid] at hf
    exact isRegistration_of_analyzeFiles (fun tree htree m => (hall tree htree m).1) hf

/-! ### Templates that cannot be checked -/

/-- A rule that declares a kind whose template leaves out more arguments than can be listed. -/
def wideRule : Rule where
  object := .string "wide"
  card := some ⟨"wide", "wide", .errors, [.kind DiagnosticKind.wideKind], "wide"⟩
  setup := some fun _ => .done

lemma not_isCheckable_wideRule : ¬ wideRule.IsCheckable := by
  intro h
  obtain ⟨b, hb⟩ := h _ (List.mem_singleton.2 rfl)
  rw [DiagnosticKind.isWellFormed_wideKind] at hb
  cases hb

end Analysis

end

namespace Analysis

attribute [local instance] Machine.small

/-- That rules are refused is not enough for a registration fault: a template that cannot be checked
makes the checks fail with a fault of another class. -/
theorem not_forall_refused_as_registration :
    ¬ ∀ rules config h links first rest, RuleSet.validate rules ≠ .ok () →
      ∃ ps, (analyzeTrees rules config h links (first :: rest)).result =
        .error (.invalidRuleSet ps) := by
  intro hall
  rcases hvalid : RuleSet.validate [wideRule] with g | _
  · obtain ⟨ps, hps⟩ := hall [wideRule] Config.default Hierarchy.standard ∅
      Traversal.blockFile [] (by rw [hvalid]; exact nofun)
    simp only [analyzeTrees, hvalid, Except.error.injEq] at hps
    exact not_isCheckable_wideRule
      ((RuleSet.exists_problems_iff hvalid).1 ⟨ps, hps⟩ _ (List.mem_singleton.2 rfl))
  · obtain ⟨card, hcard, -, -, hown⟩ :=
      ((RuleSet.validate_eq_ok_iff _).1 hvalid).rule wideRule (List.mem_singleton.2 rfl)
    cases hcard
    obtain ⟨code, hcode, -, hform⟩ := hown _ (List.mem_singleton.2 rfl)
    cases hcode
    rw [DiagnosticKind.isWellFormed_wideKind] at hform
    cases hform

end Analysis

end TreeLint
