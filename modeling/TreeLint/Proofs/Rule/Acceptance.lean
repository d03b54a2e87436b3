/-
Which rule sets pass the checks.

`RuleSet.Sound` says what is expected of a list of rules, without the order in which
the checks go through it: every rule has a card and can register, every entry of a
card is a kind of its own rule whose template uses all its arguments, no two rules
share a name, and no identifier is declared twice.  `RuleSet.validate_eq_ok_iff`: the
checks pass exactly the sound rule sets.  Soundness does not depend on the order of
the rules, and each rule of a sound set is a sound set by itself.
-/
import Mathlib.Data.List.Nodup
import TreeLint.Proofs.Except
import TreeLint.Rule.RuleSet
namespace TreeLint

/-- The identifier of an entry of a card, if it is a kind. -/
def DeclaredKind.kindId? (k : DeclaredKind) : Option String := k.kind?.map DiagnosticKind.id

/-- An entry that a rule may declare: a kind of its own whose template uses every argument. -/
def DeclaredKind.IsOwn [Machine] (rule : String) (k : DeclaredKind) : Prop :=
  ∃ code, k = .kind code ∧ code.name = rule ∧ code.isWellFormed = .ok true

@[simp] lemma DeclaredKind.kindId?_kind (code : DiagnosticKind) :
    (DeclaredKind.kind code).kindId? = some code.id := rfl

lemma DeclaredKind.isOwn_kind_iff [Machine] {rule : String} {code : DiagnosticKind} :
    (DeclaredKind.kind code).IsOwn rule ↔ code.name = rule ∧ code.isWellFormed = .ok true := by
  constructor
  · rintro ⟨code', hcode, h⟩
    cases hcode
    exact h
  · exact fun h => ⟨code, rfl, h⟩

/-- The name of a rule that has a card. -/
def Rule.name? (r : Rule) : Option String := r.card.map RuleCard.name

/-- The identifiers of the kinds that a rule declares. -/
def Rule.kindIds (r : Rule) : List String :=
  (r.card.map RuleCard.codes).getD [] |>.filterMap DeclaredKind.kindId?

/-- What is expected of a rule by itself. -/
def Rule.IsSound [Machine] (r : Rule) : Prop :=
  ∃ card, r.card = some card ∧ r.setup.isSome = true ∧ card.codes ≠ [] ∧
    ∀ k ∈ card.codes, k.IsOwn card.name

lemma Rule.name?_of_card {r : Rule} {card : RuleCard} (h : r.card = some card) :
    r.name? = some card.name := by
  rw [name?, h]
  rfl

lemma Rule.kindIds_of_card {r : Rule} {card : RuleCard} (h : r.card = some card) :
    r.kindIds = card.codes.filterMap DeclaredKind.kindId? := by
  rw [kindIds, h]
  rfl

namespace RuleSet

lemma lookup_met_eq_none_iff (id owner : String) (ids : List String)
    (owners : List (String × String)) :
    ((ids.map (·, owner)).reverse ++ owners).lookup id = none ↔
      id ∉ ids ∧ owners.lookup id = none := by
  simp only [List.lookup_eq_none_iff, List.mem_append, List.mem_reverse, List.mem_map]
  constructor
  · intro h
    refine ⟨fun hmem => ?_, fun p hp => h p (.inr hp)⟩
    simpa using h (id, owner) (.inl ⟨id, hmem, rfl⟩)
  · rintro ⟨hnot, hrest⟩ p (⟨id', hmem, rfl⟩ | hp)
    · have hne : id ≠ id' := by
        rintro rfl
        exact hnot hmem
      simpa using hne
    · exact hrest p hp

variable [Machine]

/-- What is expected of a list of rules. -/
structure Sound (rules : List Rule) : Prop where
  /-- Every rule is as expected. -/
  rule : ∀ r ∈ rules, r.IsSound
  /-- No two rules share a name. -/
  names : (rules.filterMap Rule.name?).Nodup
  /-- No identifier is declared twice. -/
  ids : (rules.flatMap Rule.kindIds).Nodup

/-! ### The kinds of one rule -/

lemma templateProblems_eq_nil_iff (code : DiagnosticKind) :
    templateProblems code = .ok [] ↔ code.isWellFormed = .ok true := by
  unfold templateProblems
  rw [Except.bind_eq_ok_iff]
  constructor
  · rintro ⟨_ | _, hform, h⟩
    · obtain ⟨slots, -, h⟩ := Except.bind_eq_ok_iff.1 h
      obtain ⟨text, -, h⟩ := Except.bind_eq_ok_iff.1 h
      cases h
    · exact hform
  · intro hform
    exact ⟨true, hform, rfl⟩

lemma codeProblems_eq_nil_iff (rule : String) (code : DiagnosticKind) (owner : Option String) :
    codeProblems rule code owner = .ok [] ↔
      code.name = rule ∧ code.isWellFormed = .ok true ∧ owner = none := by
  rw [← templateProblems_eq_nil_iff]
  unfold codeProblems
  rcases templateProblems code with f | template
  · constructor
    · intro h
      cases h
    · rintro ⟨-, h, -⟩
      cases h
  · show Except.ok _ = Except.ok _ ↔ _
    rw [Except.ok.injEq, Except.ok.injEq, List.append_eq_nil_iff, List.append_eq_nil_iff]
    cases owner with
    | none => by_cases hname : code.name = rule <;> simp [hname]
    | some other => by_cases hother : other = rule <;> simp [hother]

lemma codesProblems_other_ne (rule : String) (value : Value) (rest : List DeclaredKind)
    (owners met : List (String × String)) :
    codesProblems rule (.other value :: rest) owners ≠ .ok ([], met) := by
  intro h
  rw [codesProblems] at h
  obtain ⟨shown, -, h⟩ := Except.bind_eq_ok_iff.1 h
  obtain ⟨⟨ps, os⟩, -, h⟩ := Except.bind_eq_ok_iff.1 h
  cases h

lemma codesProblems_kind_eq_nil_iff (rule : String) (code : DiagnosticKind)
    (rest : List DeclaredKind) (owners met : List (String × String)) :
    codesProblems rule (.kind code :: rest) owners = .ok ([], met) ↔
      codeProblems rule code (owners.lookup code.id) = .ok [] ∧
        codesProblems rule rest ((code.id, rule) :: owners) = .ok ([], met) := by
  rw [codesProblems, Except.bind_eq_ok_iff]
  constructor
  · rintro ⟨own, hown, h⟩
    obtain ⟨⟨ps, os⟩, hrest, h⟩ := Except.bind_eq_ok_iff.1 h
    obtain ⟨hnil, rfl⟩ := Prod.mk.inj (Except.ok.inj h)
    obtain ⟨rfl, rfl⟩ := List.append_eq_nil_iff.1 hnil
    exact ⟨hown, hrest⟩
  · rintro ⟨hown, hrest⟩
    exact ⟨[], hown, Except.bind_eq_ok_iff.2 ⟨_, hrest, rfl⟩⟩

/-- No problem is found among the kinds of a rule exactly if they are its own, and none of their
identifiers was met before or comes twice; then they are met. -/
lemma codesProblems_eq_nil_iff (rule : String) (codes : List DeclaredKind)
    (owners met : List (String × String)) :
    codesProblems rule codes owners = .ok ([], met) ↔
      (∀ k ∈ codes, k.IsOwn rule) ∧ (codes.filterMap DeclaredKind.kindId?).Nodup ∧
      (∀ id ∈ codes.filterMap DeclaredKind.kindId?, owners.lookup id = none) ∧
      met = ((codes.filterMap DeclaredKind.kindId?).map (·, rule)).reverse ++ owners := by
  induction codes generalizing owners with
  | nil =>
    constructor
    · intro h
      cases h
      simp
    · rintro ⟨-, -, -, rfl⟩
      rfl
  | cons k rest ih =>
    cases k with
    | other value =>
      constructor
      · exact fun h => absurd h (codesProblems_other_ne rule value rest owners met)
      · rintro ⟨hown, -⟩
        obtain ⟨code, hcode, -⟩ := hown _ List.mem_cons_self
        cases hcode
    | kind code =>
      -- an identifier is new to the rest exactly if it is new and not that of the first kind
      have hmet (id : String) := lookup_met_eq_none_iff id rule [code.id] owners
      simp only [List.map_cons, List.map_nil, List.reverse_singleton, List.singleton_append,
        List.mem_singleton] at hmet
      rw [codesProblems_kind_eq_nil_iff, codeProblems_eq_nil_iff, ih, List.forall_mem_cons,
        DeclaredKind.isOwn_kind_iff, List.filterMap_cons_some (DeclaredKind.kindId?_kind code),
        List.nodup_cons, List.forall_mem_cons]
      simp only [hmet, List.map_cons, List.reverse_cons, List.append_assoc, List.singleton_append]
      constructor
      · rintro ⟨⟨hname, hform, hfirst⟩, hrest, hnodup, hfresh, hmet⟩
        exact ⟨⟨⟨hname, hform⟩, hrest⟩, ⟨fun hmem => (hfresh _ hmem).1 rfl, hnodup⟩,
          ⟨hfirst, fun id hid => (hfresh id hid).2⟩, hmet⟩
      · rintro ⟨⟨⟨hname, hform⟩, hrest⟩, ⟨hnotin, hnodup⟩, ⟨hfirst, hfresh⟩, hmet⟩
        refine ⟨⟨hname, hform, hfirst⟩, hrest, hnodup, fun id hid => ⟨?_, hfresh id hid⟩, hmet⟩
        rintro rfl
        exact hnotin hid

/-! ### The rules of a list -/

lemma ruleProblems_eq_map {r : Rule} {card : RuleCard} (hcard : r.card = some card) (met : Met) :
    ruleProblems r met = (codesProblems card.name card.codes met.owners).map fun found =>
      ((if r.setup.isSome then [] else [.noSetup card.name]) ++
        (if met.names.contains card.name then [.duplicateName card.name] else []) ++
        (if card.codes.isEmpty then [.noKinds card.name] else []) ++ found.1,
        ⟨card.name :: met.names, found.2⟩) := by
  simp only [ruleProblems, hcard]
  cases codesProblems card.name card.codes met.owners <;> rfl

lemma ruleProblems_of_card_eq_nil_iff {r : Rule} {card : RuleCard} (hcard : r.card = some card)
    (met after : Met) :
    ruleProblems r met = .ok ([], after) ↔
      r.setup.isSome = true ∧ card.name ∉ met.names ∧ card.codes ≠ [] ∧
        ∃ owners, codesProblems card.name card.codes met.owners = .ok ([], owners) ∧
          after = ⟨card.name :: met.names, owners⟩ := by
  rw [ruleProblems_eq_map hcard]
  rcases codesProblems card.name card.codes met.owners with f | ⟨codes, owners⟩
  · constructor
    · intro h
      cases h
    · rintro ⟨-, -, -, owners, h, -⟩
      cases h
  · simp only [Except.map, Except.ok.injEq, Prod.mk.injEq, List.append_eq_nil_iff]
    constructor
    · rintro ⟨⟨⟨⟨hsetup, hfresh⟩, hcodes⟩, rfl⟩, rfl⟩
      refine ⟨?_, by simpa using hfresh, by simpa using hcodes, owners, ⟨rfl, rfl⟩, rfl⟩
      by_contra hnone
      rw [if_neg hnone] at hsetup
      cases hsetup
    · rintro ⟨hsetup, hfresh, hcodes, owners', ⟨rfl, rfl⟩, rfl⟩
      simp [hsetup, hfresh, hcodes]

/-- No problem is found with a rule exactly if it is as expected, its name was not met before, and
none of its identifiers was met before or comes twice; then they are met. -/
lemma ruleProblems_eq_nil_iff (r : Rule) (met after : Met) :
    ruleProblems r met = .ok ([], after) ↔
      r.IsSound ∧ (∀ name ∈ r.name?, name ∉ met.names) ∧ r.kindIds.Nodup ∧
      (∀ id ∈ r.kindIds, met.owners.lookup id = none) ∧
      after = ⟨r.name?.toList ++ met.names,
        (r.kindIds.map (·, r.name?.getD "")).reverse ++ met.owners⟩ := by
  rcases hcard : r.card with _ | card
  · constructor
    · intro h
      rw [ruleProblems, hcard] at h
      obtain ⟨shown, -, h⟩ := Except.bind_eq_ok_iff.1 h
      cases h
    · rintro ⟨⟨card, h, -⟩, -⟩
      rw [hcard] at h
      cases h
  · have hsound : r.IsSound ↔ r.setup.isSome = true ∧ card.codes ≠ [] ∧
        ∀ k ∈ card.codes, k.IsOwn card.name := by
      constructor
      · rintro ⟨card', hcard', h⟩
        rw [hcard] at hcard'
        cases hcard'
        exact h
      · exact fun h => ⟨card, hcard, h⟩
    rw [ruleProblems_of_card_eq_nil_iff hcard, hsound, r.name?_of_card hcard,
      r.kindIds_of_card hcard]
    simp only [codesProblems_eq_nil_iff, Option.mem_some_iff, forall_eq', Option.toList_some,
      Option.getD_some, List.singleton_append]
    constructor
    · rintro ⟨hsetup, hfresh, hcodes, owners, ⟨hown, hnodup, hids, rfl⟩, rfl⟩
      exact ⟨⟨hsetup, hcodes, hown⟩, hfresh, hnodup, hids, rfl⟩
    · rintro ⟨⟨hsetup, hcodes, hown⟩, hfresh, hnodup, hids, rfl⟩
      exact ⟨hsetup, hfresh, hcodes, _, ⟨hown, hnodup, hids, rfl⟩, rfl⟩

lemma problemsFrom_cons_eq_nil_iff (r : Rule) (rest : List Rule) (met : Met) :
    problemsFrom (r :: rest) met = .ok [] ↔
      ∃ after, ruleProblems r met = .ok ([], after) ∧ problemsFrom rest after = .ok [] := by
  rw [problemsFrom, Except.bind_eq_ok_iff]
  constructor
  · rintro ⟨⟨own, after⟩, hown, h⟩
    obtain ⟨more, hmore, h⟩ := Except.bind_eq_ok_iff.1 h
    obtain ⟨rfl, rfl⟩ := List.append_eq_nil_iff.1 (Except.ok.inj h)
    exact ⟨after, hown, hmore⟩
  · rintro ⟨after, hown, hrest⟩
    exact ⟨_, hown, Except.bind_eq_ok_iff.2 ⟨_, hrest, rfl⟩⟩

/-- A list is sound exactly if its first rule and the rest are, and these share nothing. -/
lemma sound_cons_iff {r : Rule} {rest : List Rule} :
    Sound (r :: rest) ↔ r.IsSound ∧ r.kindIds.Nodup ∧ Sound rest ∧
      (∀ name ∈ r.name?, name ∉ rest.filterMap Rule.name?) ∧
      ∀ id ∈ rest.flatMap Rule.kindIds, id ∉ r.kindIds := by
  constructor
  · rintro ⟨hrule, hnames, hids⟩
    obtain ⟨hr, hrest⟩ := List.forall_mem_cons.1 hrule
    obtain ⟨card, hcard, -⟩ := id hr
    rw [List.filterMap_cons_some (r.name?_of_card hcard), List.nodup_cons] at hnames
    rw [List.flatMap_cons, List.nodup_append] at hids
    obtain ⟨hown, hothers, hdisjoint⟩ := hids
    refine ⟨hr, hown, ⟨hrest, hnames.2, hothers⟩, ?_,
      fun id hid hmem => hdisjoint id hmem id hid rfl⟩
    rw [r.name?_of_card hcard]
    rintro _ ⟨⟩
    exact hnames.1
  · rintro ⟨hr, hown, hrest, hfresh, hdisjoint⟩
    obtain ⟨card, hcard, -⟩ := id hr
    refine ⟨List.forall_mem_cons.2 ⟨hr, hrest.rule⟩, ?_, ?_⟩
    · rw [List.filterMap_cons_some (r.name?_of_card hcard), List.nodup_cons]
      exact ⟨hfresh _ (r.name?_of_card hcard), hrest.names⟩
    · rw [List.flatMap_cons, List.nodup_append]
      refine ⟨hown, hrest.ids, ?_⟩
      rintro id hid _ hother rfl
      exact hdisjoint id hother hid

/-- After what was met before, no problem is found exactly with a sound list of rules that shares no
name and no identifier with what was met. -/
lemma problemsFrom_eq_nil_iff (rules : List Rule) (met : Met) :
    problemsFrom rules met = .ok [] ↔
      Sound rules ∧ (∀ name ∈ rules.filterMap Rule.name?, name ∉ met.names) ∧
      ∀ id ∈ rules.flatMap Rule.kindIds, met.owners.lookup id = none := by
  induction rules generalizing met with
  | nil =>
    have hsound : Sound [] := ⟨by simp, by simp, by simp⟩
    simp [problemsFrom, hsound]
  | cons r rest ih =>
    rw [problemsFrom_cons_eq_nil_iff, sound_cons_iff, List.flatMap_cons, List.forall_mem_append]
    simp only [ruleProblems_eq_nil_iff, ih]
    constructor
    -- what the rest has to avoid is what was met before and what the first rule adds to it
    · rintro ⟨after, ⟨hsound, hname, hnodup, hids, rfl⟩, hrest, hnames, hmet⟩
      obtain ⟨card, hcard, -⟩ := id hsound
      rw [r.name?_of_card hcard] at hname hnames ⊢
      simp only [lookup_met_eq_none_iff] at hmet
      rw [List.filterMap_cons_some (r.name?_of_card hcard), List.forall_mem_cons]
      refine ⟨⟨hsound, hnodup, hrest, ?_, fun id hid => (hmet id hid).1⟩,
        ⟨hname _ rfl, fun name hmem hmet => hnames name hmem (List.mem_cons_of_mem _ hmet)⟩, hids,
        fun id hid => (hmet id hid).2⟩
      rintro _ ⟨⟩ hmem
      exact hnames _ hmem List.mem_cons_self
    · rintro ⟨⟨hsound, hnodup, hrest, hfresh, hdisjoint⟩, hnames, hids, hmet⟩
      obtain ⟨card, hcard, -⟩ := id hsound
      rw [List.filterMap_cons_some (r.name?_of_card hcard), List.forall_mem_cons] at hnames
      refine ⟨_, ⟨hsound, ?_, hnodup, hids, rfl⟩, hrest, ?_, fun id hid =>
        (lookup_met_eq_none_iff _ _ _ _).2 ⟨hdisjoint id hid, hmet id hid⟩⟩
      · rw [r.name?_of_card hcard]
        rintro _ ⟨⟩
        exact hnames.1
      · rw [r.name?_of_card hcard] at hfresh ⊢
        rintro name hmem hmet
        rcases List.mem_cons.1 hmet with rfl | hmet
        · exact hfresh _ rfl hmem
        · exact hnames.2 name hmem hmet

/-- **The checks pass exactly the sound rule sets.** -/
theorem validate_eq_ok_iff (rules : List Rule) : validate rules = .ok () ↔ Sound rules := by
  have hproblems : validate rules = .ok () ↔ problemsFrom rules {} = .ok [] := by
    unfold validate problems
    rcases problemsFrom rules {} with f | _ | ⟨p, ps⟩
    · constructor <;> intro h <;> cases h
    · exact ⟨fun _ => rfl, fun _ => rfl⟩
    · constructor <;> intro h <;> cases h
  rw [hproblems, problemsFrom_eq_nil_iff]
  constructor
  · exact fun h => h.1
  · exact fun h => ⟨h, fun _ _ => by simp, fun _ _ => rfl⟩

/-! ### Parts and reorderings of a sound list -/

namespace Sound

variable {rules rules' : List Rule}

/-- Soundness does not depend on the order of the rules. -/
lemma perm (h : Sound rules) (hperm : rules'.Perm rules) : Sound rules' where
  rule r hr := h.rule r (hperm.mem_iff.1 hr)
  names := (hperm.filterMap _).nodup_iff.2 h.names
  ids := (hperm.flatMap_right _).nodup_iff.2 h.ids

/-- Each rule of a sound list is sound by itself. -/
lemma singleton (h : Sound rules) {r : Rule} (hr : r ∈ rules) : Sound [r] where
  rule r' hr' := by
    rw [List.mem_singleton] at hr'
    rw [hr']
    exact h.rule r hr
  names := h.names.sublist ((List.singleton_sublist.2 hr).filterMap _)
  ids := by
    rw [List.flatMap_singleton]
    exact (List.nodup_flatMap.1 h.ids).1 r hr

end Sound

end RuleSet

end TreeLint
