/-
What rules do when they register.

Rules register one after the other, and the first that fails ends it.  What a rule does
is a script that runs in the session of the file, so whatever keeps scripts alike, or is
kept by scripts, carries over to the building of a registry: `RuleSet.buildRegistry_alike`,
`RuleSet.buildRegistry_preserves`.  Once a registry is built the reporter has learnt what
the rules declare (`RuleSet.declared_enrollAll`), and the handlers are of the sort that
the rules add (`RuleSet.handlers_of_buildRegistry`).

A rule that adds handlers from a list adds all of them or fails at the first that is not
accepted: `Script.run_addAll_of_accepted`.
-/
import TreeLint.Proofs.Lists
import TreeLint.Proofs.Rule.Acceptance
import TreeLint.Proofs.Run.Simulation
namespace TreeLint

/-- Whether a registry for rules of some names accepts a handler, as long as it is not frozen. -/
def Registration.IsAccepted (names : List String) (reg : Registration) : Prop :=
  (∃ kind, Registry.kindOf? reg.kind = some kind) ∧ (∃ handler, reg.handler = some handler) ∧
    reg.rule ∈ names

/-- What is added from a list is what the list holds. -/
lemma Registration.eq_of_parts (reg : Registration) :
    (⟨reg.kind, reg.rule, if reg.handler.isSome then
      some (reg.handler.getD fun _ _ => .done) else none⟩ : Registration) = reg := by
  obtain ⟨kind, rule, _ | handler⟩ := reg <;> rfl

/-- The handler that a rule adds for a node kind by a registration. -/
def Registration.processor? (owner : String) (kind : NodeKind) (reg : Registration) :
    Option Processor :=
  if Registry.kindOf? reg.kind = some kind then reg.handler.map (⟨reg.rule, owner, ·⟩) else none

/-- What holds of the name of a rule and of the scripts with which it registers, whatever the
file. -/
def Rule.SetsUp (P : String → Script → Prop) (r : Rule) : Prop :=
  ∀ card setup, r.card = some card → r.setup = some setup → ∀ context, P card.name (setup context)

lemma Rule.SetsUp.mono {P Q : String → Script → Prop} {r : Rule} (hr : r.SetsUp P)
    (h : ∀ name script, P name script → Q name script) : r.SetsUp Q :=
  fun card setup hcard hsetup context => h _ _ (hr card setup hcard hsetup context)

/-- What holds of the name of a rule and of the script with which it registers in a context. -/
def Rule.SetsUpIn (context : Context) (P : String → Script → Prop) (r : Rule) : Prop :=
  ∀ card setup, r.card = some card → r.setup = some setup → P card.name (setup context)

lemma Rule.SetsUpIn.mono {context : Context} {P Q : String → Script → Prop} {r : Rule}
    (hr : r.SetsUpIn context P) (h : ∀ name script, P name script → Q name script) :
    r.SetsUpIn context Q :=
  fun card setup hcard hsetup => h _ _ (hr card setup hcard hsetup)

lemma Rule.SetsUp.setsUpIn {P : String → Script → Prop} {r : Rule} (hr : r.SetsUp P)
    (context : Context) : r.SetsUpIn context P :=
  fun card setup hcard hsetup => hr card setup hcard hsetup context

/-- The identifiers of a card can be told exactly if all its entries are kinds. -/
lemma RuleCard.exists_codeIds_iff (card : RuleCard) :
    (∃ ids, card.codeIds = .ok ids) ↔ ∀ k ∈ card.codes, ∃ code, k = .kind code := by
  unfold codeIds
  induction card.codes with
  | nil => exact ⟨fun _ => by simp, fun _ => ⟨[], rfl⟩⟩
  | cons k rest ih =>
    rw [List.mapM_cons, List.forall_mem_cons, ← ih]
    cases k with
    | other value =>
      constructor
      · rintro ⟨ids, h⟩
        cases h
      · rintro ⟨⟨code, h⟩, -⟩
        cases h
    | kind code =>
      constructor
      · rintro ⟨ids, h⟩
        rcases hrest : rest.mapM DeclaredKind.id with f | more
        · rw [hrest] at h
          cases h
        · exact ⟨⟨code, rfl⟩, more, rfl⟩
      · rintro ⟨-, more, h⟩
        exact ⟨code.id :: more, by rw [h]; rfl⟩

/-- The identifiers of a card are those of its kinds. -/
lemma RuleCard.codeIds_eq {card : RuleCard} {ids : List String} (h : card.codeIds = .ok ids) :
    ids = card.codes.filterMap DeclaredKind.kindId? := by
  unfold codeIds at h
  generalize card.codes = codes at h ⊢
  induction codes generalizing ids with
  | nil =>
    cases h
    rfl
  | cons k rest ih =>
    rw [List.mapM_cons] at h
    cases k with
    | other value => cases h
    | kind code =>
      rcases hrest : rest.mapM DeclaredKind.id with f | more
      · rw [hrest] at h
        cases h
      · rw [hrest] at h
        cases h
        rw [ih hrest]
        rfl

/-! ### One handler after the other -/

namespace Registry

/-- The table after a handler is appended. -/
lemma getD_lookup_append (kind other : NodeKind) (p : Processor)
    (table : List (NodeKind × List Processor)) :
    ((append other p table).lookup kind).getD [] =
      (table.lookup kind).getD [] ++ if other = kind then [p] else [] := by
  induction table with
  | nil =>
    rcases eq_or_ne other kind with rfl | hne
    · simp [append]
    · have hbeq : (kind == other) = false := by simpa using hne.symm
      simp [append, List.lookup_cons, hbeq, hne]
  | cons entry rest ih =>
    obtain ⟨k, ps⟩ := entry
    rcases eq_or_ne k other with rfl | hother
    · rcases eq_or_ne k kind with rfl | hne
      · simp [append]
      · have hbeq : (kind == k) = false := by simpa using hne.symm
        simp [append, List.lookup_cons, hbeq, hne]
    · simp only [append, hother, if_false]
      rcases eq_or_ne k kind with rfl | hne
      · simp [hother.symm]
      · have hbeq : (kind == k) = false := by simpa using hne.symm
        simp only [List.lookup_cons, hbeq, ih]

/-- A registry with some handlers added for each node kind. -/
structure GrowsBy (r after : Registry) (added : NodeKind → List Processor) : Prop where
  allowed_eq : after.allowed = r.allowed
  frozen_eq : after.frozen = r.frozen
  processorsFor_eq : ∀ kind, after.processorsFor kind = r.processorsFor kind ++ added kind

variable {r between after : Registry} {owner : String} {names : List String}

lemma GrowsBy.refl (r : Registry) : r.GrowsBy r (fun _ => []) :=
  ⟨rfl, rfl, fun _ => (List.append_nil _).symm⟩

lemma GrowsBy.trans {first second : NodeKind → List Processor} (h₁ : r.GrowsBy between first)
    (h₂ : between.GrowsBy after second) : r.GrowsBy after (fun k => first k ++ second k) where
  allowed_eq := h₂.allowed_eq.trans h₁.allowed_eq
  frozen_eq := h₂.frozen_eq.trans h₁.frozen_eq
  processorsFor_eq kind := by
    rw [h₂.processorsFor_eq, h₁.processorsFor_eq, List.append_assoc]

variable [Machine]

/-- A registry that is not frozen takes exactly the accepted handlers. -/
lemma exists_add_eq_ok_iff (owner : String) (hfrozen : r.frozen = false)
    (hallowed : r.allowed = some names) (reg : Registration) :
    (∃ after, r.add owner reg = .ok after) ↔ reg.IsAccepted names := by
  unfold add Registration.IsAccepted
  rw [if_neg (by rw [hfrozen]; exact Bool.false_ne_true)]
  rcases kindOf? reg.kind with _ | kind
  · simp
  · rcases reg.handler with _ | handler
    · simp
    · simp only [isAllowed, hallowed, List.contains_iff_mem]
      by_cases hmem : reg.rule ∈ names <;> simp [hmem]

/-- What a registration adds. -/
lemma growsBy_add {reg : Registration} (h : r.add owner reg = .ok after) :
    r.GrowsBy after (fun kind => (reg.processor? owner kind).toList) := by
  unfold add at h
  split at h
  · cases h
  · rcases hkind : kindOf? reg.kind with _ | kind <;> rw [hkind] at h
    · cases h
    · rcases hhandler : reg.handler with _ | handler <;> rw [hhandler] at h
      · cases h
      · simp only at h
        split at h
        · cases h
          refine ⟨rfl, rfl, fun other => ?_⟩
          rw [processorsFor, getD_lookup_append, Registration.processor?, hkind, hhandler]
          rcases eq_or_ne kind other with rfl | hne
          · simp [processorsFor]
          · simp [processorsFor, hne]
        · cases h

/-- Whether all handlers of a registry, with the names under which they were added, are of one
sort. -/
def HoldsOnly (Q : String → Handler → Prop) (r : Registry) : Prop :=
  ∀ kind, ∀ p ∈ r.processorsFor kind, Q p.rule p.handler

lemma HoldsOnly.add {Q : String → Handler → Prop} {reg : Registration} (h : r.HoldsOnly Q)
    (hreg : ∀ handler, reg.handler = some handler → Q reg.rule handler)
    (hadd : r.add owner reg = .ok after) : after.HoldsOnly Q := by
  intro kind p hp
  rw [(growsBy_add hadd).processorsFor_eq, List.mem_append, Option.mem_toList] at hp
  rcases hp with hold | hnew
  · exact h kind p hold
  · unfold Registration.processor? at hnew
    split at hnew
    · obtain ⟨handler, hhandler, rfl⟩ := Option.map_eq_some_iff.1 hnew
      exact hreg handler hhandler
    · cases hnew

end Registry

section

variable [Machine]

/-- Handlers that are accepted are added one after the other. -/
lemma Script.run_addAll_of_accepted (owner : String) (links : Links) {names : List String}
    {regs : List Registration} {s : Session} (hfrozen : s.registry.frozen = false)
    (hallowed : s.registry.allowed = some names) (hregs : ∀ reg ∈ regs, reg.IsAccepted names) :
    ∃ after, (addAll regs).run owner links s = (none, s.withRegistry after) ∧
      s.registry.GrowsBy after
        (fun kind => regs.filterMap (Registration.processor? owner kind)) := by
  induction regs generalizing s with
  | nil => exact ⟨s.registry, rfl, .refl _⟩
  | cons reg rest ih =>
    obtain ⟨hfirst, hrest⟩ := List.forall_mem_cons.1 hregs
    obtain ⟨between, hadd⟩ := (Registry.exists_add_eq_ok_iff owner hfrozen hallowed reg).2 hfirst
    have hgrows := Registry.growsBy_add hadd
    obtain ⟨after, hrun, hmore⟩ := ih (s := s.withRegistry between)
      (hgrows.frozen_eq.trans hfrozen) (hgrows.allowed_eq.trans hallowed) hrest
    refine ⟨after, ?_, ?_⟩
    · simp only [addAll, run, reg.eq_of_parts, hadd]
      exact hrun
    · have hboth := hgrows.trans hmore
      refine ⟨hboth.allowed_eq, hboth.frozen_eq, fun kind => ?_⟩
      rw [hboth.processorsFor_eq, List.filterMap_cons]
      cases reg.processor? owner kind <;> rfl

end

/-! ### One rule after the other -/

namespace RuleSet

variable {context : Context} {links : Links} {rule : Rule} {rules : List Rule}
  {b b₁ b₂ : Building} {R : Session → Session → Prop} {P : Session → Prop}

/-- The session in which a rule has declared what it may report. -/
def declared (rule : Rule) (s : Session) : Session :=
  s.declare (rule.name?.getD "") rule.kindIds

/-- The names of rules can be told exactly if all of them have cards. -/
lemma names_eq_ok_iff (rules : List Rule) (ns : List String) :
    RuleSet.names rules = .ok ns ↔
      (∀ rule ∈ rules, ∃ card, rule.card = some card) ∧ ns = rules.filterMap Rule.name? := by
  unfold RuleSet.names
  induction rules generalizing ns with
  | nil =>
    constructor
    · intro h
      cases h
      simp
    · rintro ⟨-, rfl⟩
      rfl
  | cons rule rest ih =>
    rw [List.mapM_cons, List.forall_mem_cons]
    rcases hcard : rule.card with _ | card
    · have hname : rule.name = .error (.noMember rule.kind "meta") := by rw [Rule.name, hcard]
      rw [hname]
      constructor
      · intro h
        cases h
      · rintro ⟨⟨⟨card, h⟩, -⟩, -⟩
        cases h
    · have hname : rule.name = .ok card.name := by rw [Rule.name, hcard]
      have hname? := rule.name?_of_card hcard
      rw [hname, List.filterMap_cons_some hname?]
      constructor
      · intro h
        rcases hrest : rest.mapM Rule.name with f | more
        · rw [hrest] at h
          cases h
        · rw [hrest] at h
          cases h
          obtain ⟨hcards, rfl⟩ := (ih more).1 hrest
          exact ⟨⟨⟨card, rfl⟩, hcards⟩, rfl⟩
      · rintro ⟨⟨-, hcards⟩, rfl⟩
        rw [(ih _).2 ⟨hcards, rfl⟩]
        rfl

variable [Machine]

/-- A rule that registers without a fault has a card of kinds and a setup, whose script it runs
after it has declared its kinds; it is warned about if the registry stays as large as it was. -/
lemma enroll_of_ok (h : (enroll context links rule b).1 = .ok ()) :
    ∃ card setup, rule.card = some card ∧ rule.setup = some setup ∧
      (∀ k ∈ card.codes, ∃ code, k = .kind code) ∧
      (setup context).run card.name links (declared rule b.session) =
        (none, (enroll context links rule b).2.session) ∧
      (enroll context links rule b).2.warnings = b.warnings ++
        if (enroll context links rule b).2.session.registry.size == b.session.registry.size then
          [idleWarning card.name] else [] := by
  unfold enroll at h ⊢
  rcases hcard : rule.card with _ | card <;> rw [hcard] at h
  · cases h
  rcases hids : card.codeIds with f | ids <;> simp only [hids] at h ⊢
  · cases h
  rcases hsetup : rule.setup with _ | setup <;> simp only [hsetup] at h ⊢
  · cases h
  have hdeclared : declared rule b.session = b.session.declare card.name ids := by
    rw [declared, rule.name?_of_card hcard, rule.kindIds_of_card hcard, RuleCard.codeIds_eq hids]
    rfl
  obtain ⟨ended, s, hrun⟩ : ∃ ended s, (setup context).run card.name links
      (b.session.declare card.name ids) = (ended, s) := ⟨_, _, rfl⟩
  simp only [hrun] at h ⊢
  rcases ended with _ | f
  · exact ⟨card, setup, rfl, rfl, card.exists_codeIds_iff.1 ⟨ids, hids⟩, by rw [hdeclared, hrun],
      rfl⟩
  · cases h

/-- A rule of kinds whose script returns registers without a fault. -/
lemma enroll_of_returned {card : RuleCard} {setup : Context → Script} {s : Session}
    (hcard : rule.card = some card) (hsetup : rule.setup = some setup)
    (hkinds : ∀ k ∈ card.codes, ∃ code, k = .kind code)
    (hrun : (setup context).run card.name links (declared rule b.session) = (none, s)) :
    (enroll context links rule b).1 = .ok () ∧ (enroll context links rule b).2.session = s := by
  obtain ⟨ids, hids⟩ := card.exists_codeIds_iff.2 hkinds
  rw [declared, rule.name?_of_card hcard, rule.kindIds_of_card hcard,
    ← RuleCard.codeIds_eq hids, Option.getD_some] at hrun
  simp only [enroll, hcard, hids, hsetup, hrun]
  exact ⟨trivial, trivial⟩

/-- A rule registers alike in related sessions, if its script runs alike in them. -/
lemma enroll_alike (context : Context)
    (hdeclare : ∀ s₁ s₂ name ids, R s₁ s₂ → R (s₁.declare name ids) (s₂.declare name ids))
    (hrule : rule.SetsUp fun name script => script.RunsAlike R name links)
    (h : R b₁.session b₂.session) :
    (enroll context links rule b₁).1 = (enroll context links rule b₂).1 ∧
      R (enroll context links rule b₁).2.session (enroll context links rule b₂).2.session := by
  unfold enroll
  rcases hcard : rule.card with _ | card
  · exact ⟨rfl, h⟩
  · rcases hids : card.codeIds with f | ids
    · simp only [hids]
      exact ⟨trivial, h⟩
    · rcases hsetup : rule.setup with _ | setup
      · simp only [hids]
        exact ⟨trivial, hdeclare _ _ _ _ h⟩
      · obtain ⟨hend, hafter⟩ := hrule card setup hcard hsetup context _ _
          (hdeclare _ _ card.name ids h)
        simp only [hids]
        rcases h₁ : (setup context).run card.name links (b₁.session.declare card.name ids) with
          ⟨e₁, s₁⟩
        rcases h₂ : (setup context).run card.name links (b₂.session.declare card.name ids) with
          ⟨e₂, s₂⟩
        rw [h₁, h₂] at hend hafter
        subst hend
        cases e₁ <;> exact ⟨rfl, hafter⟩

lemma enrollAll_cons_of_ok (h : (enroll context links rule b).1 = .ok ()) (rest : List Rule) :
    enrollAll context links (rule :: rest) b =
      enrollAll context links rest (enroll context links rule b).2 := by
  rw [enrollAll]
  rcases hrule : enroll context links rule b with ⟨_ | _, b'⟩
  · rw [hrule] at h
    cases h
  · rfl

lemma enrollAll_singleton (context : Context) (links : Links) (rule : Rule) (b : Building) :
    enrollAll context links [rule] b = enroll context links rule b := by
  rw [enrollAll]
  rcases enroll context links rule b with ⟨_ | _, b'⟩ <;> rfl

lemma enrollAll_cons_fst_eq_ok_iff (rule : Rule) (rest : List Rule) :
    (enrollAll context links (rule :: rest) b).1 = .ok () ↔
      (enroll context links rule b).1 = .ok () ∧
        (enrollAll context links rest (enroll context links rule b).2).1 = .ok () := by
  rw [enrollAll]
  rcases enroll context links rule b with ⟨_ | _, b'⟩ <;> simp

lemma enrollAll_append_of_ok (first second : List Rule)
    (h : (enrollAll context links first b).1 = .ok ()) :
    enrollAll context links (first ++ second) b =
      enrollAll context links second (enrollAll context links first b).2 := by
  induction first generalizing b with
  | nil => rfl
  | cons rule rest ih =>
    obtain ⟨hrule, hrest⟩ := (enrollAll_cons_fst_eq_ok_iff rule rest).1 h
    rw [List.cons_append, enrollAll_cons_of_ok hrule, enrollAll_cons_of_ok hrule, ih hrest]

lemma enrollAll_append_fst_eq_ok_iff (first second : List Rule) :
    (enrollAll context links (first ++ second) b).1 = .ok () ↔
      (enrollAll context links first b).1 = .ok () ∧
        (enrollAll context links second (enrollAll context links first b).2).1 = .ok () := by
  induction first generalizing b with
  | nil => exact (and_iff_right rfl).symm
  | cons rule rest ih =>
    rw [List.cons_append, enrollAll_cons_fst_eq_ok_iff, enrollAll_cons_fst_eq_ok_iff, and_assoc]
    exact and_congr_right fun hrule => by rw [ih, enrollAll_cons_of_ok hrule]

/-- Rules register alike in related sessions, if their scripts run alike in them. -/
lemma enrollAll_alike (context : Context)
    (hdeclare : ∀ s₁ s₂ name ids, R s₁ s₂ → R (s₁.declare name ids) (s₂.declare name ids))
    (hrules : ∀ rule ∈ rules, rule.SetsUp fun name script => script.RunsAlike R name links)
    (h : R b₁.session b₂.session) :
    (enrollAll context links rules b₁).1 = (enrollAll context links rules b₂).1 ∧
      R (enrollAll context links rules b₁).2.session
        (enrollAll context links rules b₂).2.session := by
  induction rules generalizing b₁ b₂ with
  | nil => exact ⟨rfl, h⟩
  | cons rule rest ih =>
    obtain ⟨hrule, hrest⟩ := List.forall_mem_cons.1 hrules
    obtain ⟨hend, hafter⟩ := enroll_alike context hdeclare hrule h
    rw [enrollAll, enrollAll]
    rcases h₁ : enroll context links rule b₁ with ⟨e₁, c₁⟩
    rcases h₂ : enroll context links rule b₂ with ⟨e₂, c₂⟩
    rw [h₁, h₂] at hend hafter
    subst hend
    rcases e₁ with f | _
    · exact ⟨rfl, hafter⟩
    · exact ih hrest hafter

/-- What declarations and the scripts of rules keep holds after the rules have registered. -/
theorem enrollAll_preserves (hdeclare : ∀ rule ∈ rules, ∀ s, P s → P (declared rule s))
    (hrules : ∀ rule ∈ rules, rule.SetsUpIn context fun name script =>
      ∀ s, P s → P (script.run name links s).2)
    (hstart : P b.session) (hok : (enrollAll context links rules b).1 = .ok ()) :
    P (enrollAll context links rules b).2.session := by
  induction rules generalizing b with
  | nil => exact hstart
  | cons rule rest ih =>
    obtain ⟨hdeclareFirst, hdeclareRest⟩ := List.forall_mem_cons.1 hdeclare
    obtain ⟨hfirst, hrest⟩ := List.forall_mem_cons.1 hrules
    obtain ⟨hrule, hmore⟩ := (enrollAll_cons_fst_eq_ok_iff rule rest).1 hok
    obtain ⟨card, setup, hcard, hsetup, -, hrun, -⟩ := enroll_of_ok hrule
    have hafter := hfirst card setup hcard hsetup _ (hdeclareFirst _ hstart)
    rw [hrun] at hafter
    rw [enrollAll_cons_of_ok hrule]
    exact ih hdeclareRest hrest hafter hmore

/-! ### The registry of a file -/

/-- The state in which the first rule registers. -/
def opening (rules : List Rule) (reporter : Reporter) (m : Supertypes) : Building :=
  ⟨⟨reporter, { allowed := some (rules.filterMap Rule.name?) }, m⟩, []⟩

variable {reporter : Reporter} {m : Supertypes}

/-- The first rule that fails to register ends the building of a registry. -/
lemma buildRegistry_of_error {f : Fault} (hcards : ∀ rule ∈ rules, ∃ card, rule.card = some card)
    (h : enrollAll context links rules (opening rules reporter m) = (.error f, b)) :
    buildRegistry rules context links reporter m = (.error f, b) := by
  rw [opening] at h
  simp only [buildRegistry, (names_eq_ok_iff rules _).2 ⟨hcards, rfl⟩, h]

/-- A registry is frozen after all rules have registered. -/
lemma buildRegistry_of_enrollAll (hcards : ∀ rule ∈ rules, ∃ card, rule.card = some card)
    (h : enrollAll context links rules (opening rules reporter m) = (.ok (), b)) :
    buildRegistry rules context links reporter m =
      (.ok (), { b with session := b.session.freeze }) := by
  rw [opening] at h
  simp only [buildRegistry, (names_eq_ok_iff rules _).2 ⟨hcards, rfl⟩, h]

/-- Rules with cards come to the end that they come to when they register. -/
lemma buildRegistry_of_cards (context : Context) (links : Links) (reporter : Reporter)
    (m : Supertypes) (hcards : ∀ rule ∈ rules, ∃ card, rule.card = some card) :
    (buildRegistry rules context links reporter m).1 =
        (enrollAll context links rules (opening rules reporter m)).1 ∧
      ((enrollAll context links rules (opening rules reporter m)).1 = .ok () →
        (buildRegistry rules context links reporter m).2.session =
          (enrollAll context links rules (opening rules reporter m)).2.session.freeze) := by
  rcases h : enrollAll context links rules (opening rules reporter m) with ⟨f | _, b⟩
  · rw [buildRegistry_of_error hcards h]
    exact ⟨rfl, nofun⟩
  · rw [buildRegistry_of_enrollAll hcards h]
    exact ⟨rfl, fun _ => rfl⟩

/-- A rule that registers without a fault has a card. -/
lemma exists_card_of_enrollAll (h : (enrollAll context links rules b).1 = .ok ()) :
    ∀ rule ∈ rules, ∃ card, rule.card = some card := by
  induction rules generalizing b with
  | nil => simp
  | cons rule rest ih =>
    obtain ⟨hrule, hrest⟩ := (enrollAll_cons_fst_eq_ok_iff rule rest).1 h
    obtain ⟨card, setup, hcard, -⟩ := enroll_of_ok hrule
    exact List.forall_mem_cons.2 ⟨⟨card, hcard⟩, ih hrest⟩

/-- **A registry is built exactly if all rules register without a fault**, and then it is the one
that they leave, frozen. -/
theorem buildRegistry_of_ok :
    ((buildRegistry rules context links reporter m).1 = .ok () ↔
      (enrollAll context links rules (opening rules reporter m)).1 = .ok ()) ∧
    ((buildRegistry rules context links reporter m).1 = .ok () →
      (buildRegistry rules context links reporter m).2 =
        { (enrollAll context links rules (opening rules reporter m)).2 with session :=
          (enrollAll context links rules (opening rules reporter m)).2.session.freeze }) := by
  rcases hnames : RuleSet.names rules with f | ns
  · have hnone : ¬(enrollAll context links rules (opening rules reporter m)).1 = .ok () := by
      intro h
      rw [(names_eq_ok_iff rules _).2 ⟨exists_card_of_enrollAll h, rfl⟩] at hnames
      cases hnames
    simp [buildRegistry, hnames, hnone]
  · obtain ⟨hcards, -⟩ := (names_eq_ok_iff rules ns).1 hnames
    rcases h : enrollAll context links rules (opening rules reporter m) with ⟨f | _, b⟩
    · simp [buildRegistry_of_error hcards h]
    · simp [buildRegistry_of_enrollAll hcards h]

/-- **Registries are built alike** in related sessions, if the scripts of the rules run alike. -/
theorem buildRegistry_alike (context : Context) {reporter₁ reporter₂ : Reporter}
    {m₁ m₂ : Supertypes}
    (hdeclare : ∀ s₁ s₂ name ids, R s₁ s₂ → R (s₁.declare name ids) (s₂.declare name ids))
    (hfreeze : ∀ s₁ s₂, R s₁ s₂ → R s₁.freeze s₂.freeze)
    (hrules : ∀ rule ∈ rules, rule.SetsUp fun name script => script.RunsAlike R name links)
    (hstart : R (opening rules reporter₁ m₁).session (opening rules reporter₂ m₂).session) :
    (buildRegistry rules context links reporter₁ m₁).1 =
        (buildRegistry rules context links reporter₂ m₂).1 ∧
      ((buildRegistry rules context links reporter₁ m₁).1 = .ok () →
        R (buildRegistry rules context links reporter₁ m₁).2.session
          (buildRegistry rules context links reporter₂ m₂).2.session) := by
  rcases hnames : RuleSet.names rules with f | ns
  · simp [buildRegistry, hnames]
  · obtain ⟨hcards, -⟩ := (names_eq_ok_iff rules ns).1 hnames
    obtain ⟨hend, hafter⟩ := enrollAll_alike context hdeclare hrules hstart
    rcases h₁ : enrollAll context links rules (opening rules reporter₁ m₁) with ⟨e₁, b₁⟩
    rcases h₂ : enrollAll context links rules (opening rules reporter₂ m₂) with ⟨e₂, b₂⟩
    rw [h₁, h₂] at hend hafter
    subst hend
    rcases e₁ with f | _
    · rw [buildRegistry_of_error hcards h₁, buildRegistry_of_error hcards h₂]
      exact ⟨rfl, fun h => nomatch h⟩
    · rw [buildRegistry_of_enrollAll hcards h₁, buildRegistry_of_enrollAll hcards h₂]
      exact ⟨rfl, fun _ => hfreeze _ _ hafter⟩

/-- **What the scripts of rules keep holds when a registry is built.** -/
theorem buildRegistry_preserves
    (hdeclare : ∀ s name ids, P s → P (s.declare name ids)) (hfreeze : ∀ s, P s → P s.freeze)
    (hrules : ∀ rule ∈ rules, rule.SetsUpIn context fun name script =>
      ∀ s, P s → P (script.run name links s).2)
    (hstart : P (opening rules reporter m).session)
    (hbuild : (buildRegistry rules context links reporter m).1 = .ok ()) :
    P (buildRegistry rules context links reporter m).2.session := by
  rw [buildRegistry_of_ok.2 hbuild]
  exact hfreeze _ (enrollAll_preserves (fun rule _ s hs => hdeclare s _ _ hs) hrules hstart
    (buildRegistry_of_ok.1.1 hbuild))

/-- A registry that is built is frozen. -/
lemma frozen_of_buildRegistry (hbuild : (buildRegistry rules context links reporter m).1 = .ok ()) :
    (buildRegistry rules context links reporter m).2.session.registry.frozen = true := by
  rw [buildRegistry_of_ok.2 hbuild]
  rfl

/-- The handlers of a registry that is built are of the sort that the rules add. -/
theorem handlers_of_buildRegistry {Q : String → Handler → Prop}
    (hrules : ∀ rule ∈ rules, rule.SetsUpIn context fun _ script => script.AddsOnly fun reg =>
      ∀ handler, reg.handler = some handler → Q reg.rule handler)
    (hbuild : (buildRegistry rules context links reporter m).1 = .ok ()) :
    (buildRegistry rules context links reporter m).2.session.registry.HoldsOnly Q := by
  have inv : Session.Invariant (fun _ => True)
      (fun reg => ∀ handler, reg.handler = some handler → Q reg.rule handler)
      (fun s => s.registry.HoldsOnly Q) :=
    ⟨fun hs _ => hs, fun hs hreg hadd => hs.add hreg hadd, fun hs => hs⟩
  refine buildRegistry_preserves (P := fun s => s.registry.HoldsOnly Q) (fun _ _ _ hs => hs)
    (fun _ hs => hs) (fun rule hrule => (hrules rule hrule).mono ?_) ?_ hbuild
  · intro name script hscript s hs
    exact Script.run_preserves inv name links script
      (Script.reportsOnly_of_forall (fun _ => trivial) _) hscript hs
  · intro kind p hp
    cases hp

/-- A rule with a list of handlers that are all accepted registers them by itself. -/
theorem buildRegistry_addAll {card : RuleCard} {regs : Context → List Registration}
    (hcard : rule.card = some card) (hkinds : ∀ k ∈ card.codes, ∃ code, k = .kind code)
    (hsetup : rule.setup = some fun context => .addAll (regs context)) (context : Context)
    (hregs : ∀ reg ∈ regs context, reg.IsAccepted [card.name]) (links : Links)
    (reporter : Reporter) (m : Supertypes) :
    (buildRegistry [rule] context links reporter m).1 = .ok () ∧ ∃ registry : Registry,
      (buildRegistry [rule] context links reporter m).2.session =
        ⟨reporter.declare card.name rule.kindIds, registry, m⟩ ∧
      registry.frozen = true ∧ ∀ kind, registry.processorsFor kind =
        (regs context).filterMap (Registration.processor? card.name kind) := by
  have hname := rule.name?_of_card hcard
  obtain ⟨ids, hids⟩ := card.exists_codeIds_iff.2 hkinds
  have hown : rule.kindIds = ids := by rw [rule.kindIds_of_card hcard, RuleCard.codeIds_eq hids]
  let start : Session := ⟨reporter.declare card.name ids, { allowed := some [card.name] }, m⟩
  obtain ⟨after, hrun, hgrows⟩ := Script.run_addAll_of_accepted card.name links (s := start)
    rfl rfl hregs
  have hopening : opening [rule] reporter m =
      ⟨⟨reporter, { allowed := some [card.name] }, m⟩, []⟩ := by
    rw [opening, List.filterMap_cons_some hname]
    rfl
  have hdeclared : declared rule (opening [rule] reporter m).session = start := by
    rw [hopening, declared, hname, hown]
    rfl
  have henroll := enroll_of_returned (b := opening [rule] reporter m) hcard hsetup hkinds
    (by rw [hdeclared]; exact hrun)
  have hcards : ∀ other ∈ [rule], ∃ card, other.card = some card :=
    List.forall_mem_singleton.2 ⟨card, hcard⟩
  obtain ⟨hbuild, hsession⟩ := buildRegistry_of_cards context links reporter m hcards
  rw [enrollAll_singleton] at hbuild hsession
  refine ⟨hbuild.trans henroll.1, after.freeze, ?_, rfl, fun kind => ?_⟩
  · rw [hsession henroll.1, henroll.2, hown]
    rfl
  · rw [Registry.processorsFor_freeze, hgrows.processorsFor_eq]
    exact List.nil_append _

/-- The registry that is built for a rule alone. -/
def registryAlone (rule : Rule) (context : Context) (links : Links) (reporter : Reporter)
    (m : Supertypes) : Registry :=
  (buildRegistry [rule] context links reporter m).2.session.registry

/-- A rule that adds the same handlers for every file has just these when it has registered by
itself. -/
lemma processorsFor_registryAlone {card : RuleCard} {regs : List Registration}
    (hcard : rule.card = some card) (hkinds : ∀ k ∈ card.codes, ∃ code, k = .kind code)
    (hsetup : rule.setup = some fun _ => .addAll regs)
    (hregs : ∀ reg ∈ regs, reg.IsAccepted [card.name]) (context : Context) (links : Links)
    (reporter : Reporter) (m : Supertypes) :
    (buildRegistry [rule] context links reporter m).1 = .ok () ∧
      ∀ kind, (registryAlone rule context links reporter m).processorsFor kind =
        regs.filterMap (Registration.processor? card.name kind) := by
  obtain ⟨hbuild, registry, hsession, -, hprocessors⟩ :=
    buildRegistry_addAll hcard hkinds hsetup context hregs links reporter m
  refine ⟨hbuild, fun kind => ?_⟩
  rw [registryAlone, hsession, hprocessors]

/-! ### What the reporter learns -/

/-- What a reporter was made with. -/
structure Resembles (reporter r : Reporter) : Prop where
  tree_eq : r.tree = reporter.tree
  strict_eq : r.strict = reporter.strict
  severities_eq : r.severities = reporter.severities
  limit_eq : r.limit = reporter.limit

/-- Scripts leave what the reporter was made with. -/
lemma resembles_invariant (reporter : Reporter) :
    Session.Invariant (fun _ => True) (fun _ => True) (fun s => Resembles reporter s.reporter) where
  report := by
    intro s r hs _
    obtain ⟨htree, hstrict, hseverities, hlimit, -⟩ := s.reporter.settings_report r
    exact ⟨htree.trans hs.tree_eq, hstrict.trans hs.strict_eq, hseverities.trans hs.severities_eq,
      hlimit.trans hs.limit_eq⟩
  add hs _ _ := hs
  question hs := hs

/-- Scripts declare nothing. -/
lemma declared_invariant (table : List (String × List String)) :
    Session.Invariant (fun _ => True) (fun _ => True) (fun s => s.reporter.declared = table) where
  report hs _ := (Reporter.settings_report _ _).2.2.2.2.trans hs
  add hs _ _ := hs
  question hs := hs

/-- What all scripts keep a script keeps. -/
lemma run_preserves_of_forall
    (inv : Session.Invariant (fun _ => True) (fun _ => True) P) (owner : String) (links : Links)
    (script : Script) {s : Session} (h : P s) : P (script.run owner links s).2 :=
  script.run_preserves inv owner links (script.reportsOnly_of_forall fun _ => trivial)
    (script.addsOnly_of_forall fun _ => trivial) h

/-- The name of a rule with the identifiers that it declares. -/
def vocabulary (rule : Rule) : String × List String := (rule.name?.getD "", rule.kindIds)

/-- What rules declare is noted, the latest declaration first. -/
lemma declared_enrollAll (h : (enrollAll context links rules b).1 = .ok ()) :
    (enrollAll context links rules b).2.session.reporter.declared =
      (rules.map vocabulary).reverse ++ b.session.reporter.declared := by
  induction rules generalizing b with
  | nil => rfl
  | cons rule rest ih =>
    obtain ⟨hrule, hrest⟩ := (enrollAll_cons_fst_eq_ok_iff rule rest).1 h
    obtain ⟨card, setup, -, -, -, hrun, -⟩ := enroll_of_ok hrule
    have hdeclared := run_preserves_of_forall
      (declared_invariant (vocabulary rule :: b.session.reporter.declared)) card.name links
      (setup context) (s := declared rule b.session) rfl
    rw [hrun] at hdeclared
    rw [enrollAll_cons_of_ok hrule, ih hrest, hdeclared, List.map_cons, List.reverse_cons,
      List.append_assoc]
    rfl

/-- In a sound list every rule has a name. -/
lemma Sound.exists_name (h : Sound rules) (hrule : rule ∈ rules) :
    ∃ name, rule.name? = some name := by
  obtain ⟨card, hcard, -⟩ := h.rule rule hrule
  exact ⟨card.name, rule.name?_of_card hcard⟩

lemma Sound.map_name (h : Sound rules) :
    rules.map (fun rule => rule.name?.getD "") = rules.filterMap Rule.name? := by
  have hrule := h.rule
  clear h
  induction rules with
  | nil => rfl
  | cons rule rest ih =>
    obtain ⟨⟨card, hcard, -⟩, hrest⟩ := List.forall_mem_cons.1 hrule
    have hname := rule.name?_of_card hcard
    rw [List.map_cons, List.filterMap_cons_some hname, ih hrest, hname]
    rfl

/-- Once the rules of a sound list are learnt, looking up a name gives what its rule declares. -/
lemma Sound.lookup_vocabulary (h : Sound rules) (name : String) (ids : List String) :
    (rules.map vocabulary).reverse.lookup name = some ids ↔
      ∃ rule ∈ rules, rule.name? = some name ∧ rule.kindIds = ids := by
  have hnodup : ((rules.map vocabulary).reverse.map Prod.fst).Nodup := by
    rw [List.map_reverse, List.nodup_reverse, List.map_map]
    show (rules.map (fun rule => rule.name?.getD "")).Nodup
    rw [h.map_name]
    exact h.names
  rw [lookup_eq_some_iff_mem hnodup, List.mem_reverse, List.mem_map]
  refine exists_congr fun rule => and_congr_right fun hr => ?_
  obtain ⟨card, hcard, -⟩ := h.rule rule hr
  have hname := rule.name?_of_card hcard
  rw [vocabulary, hname, Prod.mk.injEq, Option.some.injEq]
  rfl

end RuleSet

end TreeLint
