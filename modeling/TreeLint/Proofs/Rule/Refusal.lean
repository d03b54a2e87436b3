/-
How rule sets are refused.

The checks of a rule set look at every rule and list all problems.  They come to an
end exactly if all templates can be checked and everything that has to be shown has a
text, and then a set that is refused is refused with the list of its problems:
`RuleSet.exists_problems_iff`.

Rules that passed the checks register in the order of the list, each in the session that
those before it leave, and the first rule whose script fails decides the fault:
`RuleSet.enrollAll_fst_of_failure`.  A rule that adds handlers from a list fails at the
first that is refused (`Rule.failure?_addAll`).
-/
import TreeLint.Proofs.Diagnostic.Message
import TreeLint.Proofs.Rule.Enrollment
namespace TreeLint

/-! ### Checks that come to an end -/

/-- A step that succeeds exactly under a condition, and otherwise fails with something else than a
list of problems. -/
def Tells {α : Type} (P : Prop) : Except Fault α → Prop
  | .ok _ => P
  | .error f => ¬ P ∧ ∀ problems, f ≠ .invalidRuleSet problems

section Tells

variable {α β : Type} {P Q : Prop} {step : Except Fault α}

lemma Tells.bind {next : α → Except Fault β} (h : Tells P step) (hnext : ∀ a, Tells Q (next a)) :
    Tells (P ∧ Q) (step >>= next) := by
  rcases step with f | a
  · exact ⟨fun hand => h.1 hand.1, h.2⟩
  · have hstep : ((Except.ok a : Except Fault α) >>= next) = next a := rfl
    have hrest := hnext a
    rw [hstep]
    rcases hb : next a with f | b <;> rw [hb] at hrest
    · exact ⟨fun hand => hrest.1 hand.2, hrest.2⟩
    · exact ⟨h, hrest⟩

lemma Tells.map {next : α → β} (h : Tells P step) :
    Tells P (step >>= fun a => Except.ok (next a)) := by
  rcases step with f | a
  · exact h
  · exact h

lemma Tells.congr (h : Tells P step) (hiff : P ↔ Q) : Tells Q step := by
  rwa [← hiff]

/-- A text is told exactly if there is one. -/
lemma tells_told (text : Except TextFault α) : Tells (∃ a, text = .ok a) (Fault.told text) := by
  cases text with
  | ok a => exact ⟨a, rfl⟩
  | error why => exact ⟨by simp, nofun⟩

end Tells

section

variable [Machine]

/-- Whether the template of a kind can be checked. -/
def DiagnosticKind.IsCheckable (code : DiagnosticKind) : Prop := ∃ b, code.isWellFormed = .ok b

/-- Whether an entry of a card can be checked: a kind whose template can be checked, or something
else that can be shown. -/
def DeclaredKind.IsCheckable : DeclaredKind → Prop
  | .kind code => code.IsCheckable
  | .other value => ∃ s, value.quoted = .ok s

/-- Whether a rule can be checked: every entry of its card can be, and a rule without a card can be
shown. -/
def Rule.IsCheckable (r : Rule) : Prop :=
  match r.card with
  | some card => ∀ k ∈ card.codes, k.IsCheckable
  | none => ∃ s, r.object.quoted = .ok s

namespace DiagnosticKind

/-- A template that cannot be checked has an index that is too long or too large. -/
lemma tells_isWellFormed (code : DiagnosticKind) : Tells code.IsCheckable code.isWellFormed := by
  rcases h : code.isWellFormed with f | b
  · have hnot : ¬ code.IsCheckable := by
      rintro ⟨b, hb⟩
      rw [h] at hb
      cases hb
    refine ⟨hnot, ?_⟩
    rcases hread : Template.tooLong? Value.digitLimit code.pieces with _ | width
    · rw [isWellFormed, code.withPieces_of_none hread] at h
      split_ifs at h <;> cases h <;> rintro _ ⟨⟩
    · rw [isWellFormed, code.withPieces_of_some hread] at h
      cases h
      rintro _ ⟨⟩
  · exact ⟨b, h⟩

/-- The indexes of a template can be told if it can be checked. -/
lemma exists_slotIndexes {code : DiagnosticKind} {b : Bool} (h : code.isWellFormed = .ok b) :
    code.slotIndexes = .ok (Template.indexes code.pieces) ∧
      Template.tooLong? Value.digitLimit code.pieces = none := by
  rcases hread : Template.tooLong? Value.digitLimit code.pieces with _ | width
  · exact ⟨code.withPieces_of_none hread _, rfl⟩
  · rw [isWellFormed, code.withPieces_of_some hread] at h
    cases h

end DiagnosticKind

namespace RuleSet

/-- Once a template can be read, its indexes have a text. -/
lemma exists_slotsText {code : DiagnosticKind}
    (hread : Template.tooLong? Value.digitLimit code.pieces = none) :
    ∃ s, slotsText (Template.indexes code.pieces) = .ok s := by
  obtain ⟨cut, hcut⟩ := Template.Cut.exists_isCutOf code.template.toList
  have hpieces : code.pieces = cut.pieces := hcut.pieces_eq
  rw [hpieces] at hread ⊢
  -- the numerals have no more digits than an integer may have
  have hshort : ∀ i ∈ Template.indexes cut.pieces, i < Value.leastLong := by
    intro i hi
    obtain ⟨g, hg, rfl⟩ := Template.Cut.mem_indexes_pieces.1 hi
    have hlt (n : Nat) (h : g.numeral.length ≤ n) : g.index < Nat.pow 10 n :=
      Nat.lt_of_lt_of_le (Template.valueOf_lt (hcut.isNumeral g hg))
        (Nat.pow_le_pow_right (by decide) h)
    unfold Value.leastLong
    exact hlt Value.digitLimit (Template.Cut.tooLong?_pieces_eq_none_iff.1 hread g hg)
  refine Value.exists_text_iff.2 ⟨?_, ?_⟩
  · rw [Value.levels, Nat.add_le_add_iff_right, Value.itemsLevels_le_iff]
    intro v hv
    obtain ⟨i, -, rfl⟩ := List.mem_map.1 hv
    exact Nat.le_add_left 1 _
  · intro leaf hleaf
    rw [Value.leaves, Value.mem_itemsLeaves_iff] at hleaf
    obtain ⟨v, hv, hmem⟩ := hleaf
    obtain ⟨i, hi, rfl⟩ := List.mem_map.1 hv
    rw [Value.leaves, List.mem_singleton] at hmem
    · subst hmem
      exact hshort i hi
    all_goals
      intros
      contradiction

lemma tells_templateProblems (code : DiagnosticKind) :
    Tells code.IsCheckable (templateProblems code) := by
  have htells := code.tells_isWellFormed
  unfold templateProblems
  rcases hform : code.isWellFormed with f | b <;> rw [hform] at htells
  · exact htells
  · obtain ⟨hslots, hread⟩ := code.exists_slotIndexes hform
    obtain ⟨s, hs⟩ := exists_slotsText hread
    cases b with
    | true => exact htells
    | false =>
      rw [hslots]
      simp only [Bind.bind, Except.bind, hs, Fault.told_ok]
      exact htells

lemma tells_codeProblems (rule : String) (code : DiagnosticKind) (owner : Option String) :
    Tells code.IsCheckable (codeProblems rule code owner) := by
  unfold codeProblems
  exact (tells_templateProblems code).map

lemma tells_codesProblems (rule : String) (codes : List DeclaredKind)
    (owners : List (String × String)) :
    Tells (∀ k ∈ codes, k.IsCheckable) (codesProblems rule codes owners) := by
  induction codes generalizing owners with
  | nil =>
    intro k hk
    cases hk
  | cons k rest ih =>
    rw [List.forall_mem_cons]
    cases k with
    | other value => exact (tells_told _).bind fun shown => (ih owners).map
    | kind code => exact (tells_codeProblems rule code _).bind fun own => (ih _).map

lemma tells_ruleProblems (r : Rule) (met : Met) : Tells r.IsCheckable (ruleProblems r met) := by
  unfold ruleProblems Rule.IsCheckable
  rcases r.card with _ | card
  · exact (tells_told _).map
  · exact (tells_codesProblems card.name card.codes met.owners).map

lemma tells_problemsFrom (rules : List Rule) (met : Met) :
    Tells (∀ r ∈ rules, r.IsCheckable) (problemsFrom rules met) := by
  induction rules generalizing met with
  | nil =>
    intro r hr
    cases hr
  | cons r rest ih =>
    rw [List.forall_mem_cons]
    exact (tells_ruleProblems r met).bind fun after => (ih _).map

/-- **A rule set that is refused is refused with its problems exactly if everything in it can be
checked.** -/
theorem exists_problems_iff {rules : List Rule} {f : Fault} (h : validate rules = .error f) :
    (∃ ps, f = .invalidRuleSet ps) ↔ ∀ r ∈ rules, r.IsCheckable := by
  have htells : Tells (∀ r ∈ rules, r.IsCheckable) (problems rules) := tells_problemsFrom rules {}
  unfold validate at h
  rcases hproblems : problems rules with g | _ | ⟨p, ps⟩ <;> rw [hproblems] at h htells <;> cases h
  · exact ⟨fun ⟨ps, hps⟩ => absurd hps (htells.2 ps), fun hall => absurd hall htells.1⟩
  · exact ⟨fun _ => htells, fun _ => ⟨_, rfl⟩⟩

end RuleSet

/-! ### The first rule that fails to register -/

/-- The fault of an attempt to add a handler to a registry for rules of some names, as long as it is
not frozen. -/
def Registration.refusal? (names : List String) (reg : Registration) : Option Fault :=
  match Registry.kindOf? reg.kind with
  | none => some (.showing reg.kind.quoted (.unknownKind reg.rule))
  | some kind =>
    if reg.handler.isNone then some (.notCallable reg.rule kind)
    else if reg.rule ∈ names then none
    else some (.outsideRuleSet reg.rule)

/-- How a rule fails that registers in a session, if it does. -/
def Rule.failure? (context : Context) (links : Links) (r : Rule) (s : Session) : Option Fault :=
  match r.card, r.setup with
  | some card, some setup => ((setup context).run card.name links (RuleSet.declared r s)).1
  | _, _ => some (.noMember r.kind "register_node_processors")

namespace Registry

variable {r after : Registry} {names : List String}

/-- What an attempt to add a handler comes to. -/
lemma add_eq_refusal (owner : String) (hfrozen : r.frozen = false)
    (hallowed : r.allowed = some names) (reg : Registration) :
    (∃ f, r.add owner reg = .error f ∧ reg.refusal? names = some f) ∨
      ∃ after, r.add owner reg = .ok after ∧ reg.refusal? names = none := by
  unfold add Registration.refusal?
  rw [if_neg (by rw [hfrozen]; exact Bool.false_ne_true)]
  rcases kindOf? reg.kind with _ | kind
  · simp
  · rcases reg.handler with _ | handler
    · simp
    · simp only [isAllowed, hallowed, List.contains_iff_mem]
      by_cases hmem : reg.rule ∈ names <;> simp [hmem]

end Registry

/-- Handlers are added up to the first that is refused. -/
lemma Script.run_addAll_fst (owner : String) (links : Links) {names : List String}
    (regs : List Registration) {s : Session} (hfrozen : s.registry.frozen = false)
    (hallowed : s.registry.allowed = some names) :
    ((addAll regs).run owner links s).1 = regs.findSome? (Registration.refusal? names) := by
  induction regs generalizing s with
  | nil => rfl
  | cons reg rest ih =>
    rw [List.findSome?_cons]
    rcases Registry.add_eq_refusal owner hfrozen hallowed reg with
      ⟨f, hadd, hrefusal⟩ | ⟨after, hadd, hrefusal⟩
    · simp only [addAll, run, reg.eq_of_parts, hadd, hrefusal, orFail]
    · have hgrows := Registry.growsBy_add hadd
      simp only [addAll, run, reg.eq_of_parts, hadd, hrefusal, orFail]
      exact ih (s := s.withRegistry after) (hgrows.frozen_eq.trans hfrozen)
        (hgrows.allowed_eq.trans hallowed)

namespace RuleSet

variable {context : Context} {links : Links} {rule : Rule} {rules : List Rule} {b : Building}
  {names : List String}

/-- The registry of a session takes handlers of the rules of some names. -/
structure Accepts (names : List String) (s : Session) : Prop where
  frozen : s.registry.frozen = false
  allowed : s.registry.allowed = some names

lemma accepts_invariant (names : List String) :
    Session.Invariant (fun _ => True) (fun _ => True) (Accepts names) where
  report hs _ := ⟨hs.frozen, hs.allowed⟩
  add hs _ hadd :=
    ⟨(Registry.growsBy_add hadd).frozen_eq.trans hs.frozen,
      (Registry.growsBy_add hadd).allowed_eq.trans hs.allowed⟩
  question hs := ⟨hs.frozen, hs.allowed⟩

/-- As long as rules register, the registry takes handlers. -/
lemma accepts_enrollAll (h : (enrollAll context links rules b).1 = .ok ())
    (hb : Accepts names b.session) :
    Accepts names (enrollAll context links rules b).2.session :=
  enrollAll_preserves (P := Accepts names) (fun _ _ _ hs => ⟨hs.frozen, hs.allowed⟩)
    (fun _ _ _ _ _ _ _ hs => run_preserves_of_forall (accepts_invariant names) _ links _ hs) hb h

/-- A rule that adds handlers from a list fails with the first that is refused. -/
lemma failure?_addAll {card : RuleCard} {regs : Context → List Registration}
    (hcard : rule.card = some card)
    (hsetup : rule.setup = some fun context => .addAll (regs context)) {s : Session}
    (hs : Accepts names s) :
    rule.failure? context links s =
      (regs context).findSome? (Registration.refusal? names) := by
  simp only [Rule.failure?, hcard, hsetup]
  exact Script.run_addAll_fst card.name links _ hs.frozen hs.allowed

/-- A sound rule registers without a fault exactly if it does not fail; otherwise its fault is
passed on, or told as the cause of another one. -/
lemma enroll_fst_eq (hsound : rule.IsSound) (context : Context) (links : Links) (b : Building) :
    (enroll context links rule b).1 =
      (rule.failure? context links b.session).elim (.ok ())
        fun f => .error (setupFault (rule.name?.getD "") f) := by
  obtain ⟨card, hcard, hsome, -, hown⟩ := hsound
  obtain ⟨setup, hsetup⟩ := Option.isSome_iff_exists.1 hsome
  obtain ⟨ids, hids⟩ := card.exists_codeIds_iff.2 fun k hk => by
    obtain ⟨code, hcode, -⟩ := hown k hk
    exact ⟨code, hcode⟩
  have hdeclared : declared rule b.session = b.session.declare card.name ids := by
    rw [declared, rule.name?_of_card hcard, rule.kindIds_of_card hcard, RuleCard.codeIds_eq hids]
    rfl
  rw [rule.name?_of_card hcard, Option.getD_some]
  simp only [enroll, Rule.failure?, hcard, hids, hsetup, hdeclared]
  rcases (setup context).run card.name links (b.session.declare card.name ids) with ⟨_ | f, s⟩ <;>
    rfl

/-- **The first rule that fails to register decides the fault.** -/
theorem enrollAll_fst_of_failure {before : List Rule} {f : Fault} (after : List Rule)
    (hsound : rule.IsSound) (hbefore : (enrollAll context links before b).1 = .ok ())
    (hfailure : rule.failure? context links (enrollAll context links before b).2.session = some f) :
    (enrollAll context links (before ++ rule :: after) b).1 =
      .error (setupFault (rule.name?.getD "") f) := by
  rw [enrollAll_append_of_ok before _ hbefore, enrollAll]
  have hfails := enroll_fst_eq hsound context links (enrollAll context links before b).2
  rw [hfailure, Option.elim_some] at hfails
  rcases hrule : enroll context links rule (enrollAll context links before b).2 with ⟨g | _, b'⟩ <;>
    rw [hrule] at hfails
  · exact hfails
  · cases hfails

/-- Sound rules register without a fault exactly if none of them fails in the session that those
before it leave. -/
theorem enrollAll_fst_eq_ok_iff (hsound : ∀ r ∈ rules, r.IsSound) :
    (enrollAll context links rules b).1 = .ok () ↔
      ∀ before rule after, rules = before ++ rule :: after →
        rule.failure? context links (enrollAll context links before b).2.session = none := by
  constructor
  · rintro h before rule after rfl
    obtain ⟨hbefore, hthen⟩ := (enrollAll_append_fst_eq_ok_iff before _).1 h
    obtain ⟨hown, -⟩ := (enrollAll_cons_fst_eq_ok_iff rule after).1 hthen
    rw [enroll_fst_eq (hsound rule (by simp))] at hown
    rcases hfailure : rule.failure? context links
      (enrollAll context links before b).2.session with _ | f
    · rfl
    · rw [hfailure] at hown
      cases hown
  · intro hall
    induction rules generalizing b with
    | nil => rfl
    | cons rule rest ih =>
      obtain ⟨hrule, hrest⟩ := List.forall_mem_cons.1 hsound
      have hown : (enroll context links rule b).1 = .ok () := by
        have hnone : rule.failure? context links b.session = none := hall [] rule rest rfl
        rw [enroll_fst_eq hrule, hnone, Option.elim_none]
      refine (enrollAll_cons_fst_eq_ok_iff rule rest).2 ⟨hown, ih hrest ?_⟩
      rintro before other after rfl
      have hnone := hall (rule :: before) other after rfl
      rwa [enrollAll_cons_of_ok hown] at hnone

end RuleSet

end

end TreeLint
