/-
What the checks say of a rule set.

The checks come to an end exactly if everything in the set can be told: no index of a
template is written with too many digits, a template that leaves out an argument uses no
index that is too large to list all below it (`DiagnosticKind.isCheckable_iff`), and the
entries that are no kinds and the rules without a card have a text.  Then they pass the
faultless sets, and of any other set they tell every fault at the place where it is: the
list of problems is put together from a share for every rule and for every entry of a
card, and each share holds exactly what is wrong at its place (`RuleSet.IsShare`), whatever
stands before it.  `RuleSet.validate_verdict` puts this together.
-/
import TreeLint.Proofs.Diagnostic.Message
import TreeLint.Proofs.Rule.Refusal
namespace TreeLint

/-! ### Templates -/

namespace Template

/-- Whether a template has a placeholder with an index. -/
def Mentions (s : List Char) (i : Nat) : Prop :=
  ∃ numeral, IsNumeral numeral ∧ placeholder numeral <:+: s ∧ valueOf numeral = i

/-- Whether the indexes of the placeholders are all numbers below some number. -/
def IsContiguous (s : List Char) : Prop := ∃ n, ∀ i, Mentions s i ↔ i < n

/-- Whether no placeholder has a numeral with too many digits. -/
def IsReadable (s : List Char) : Prop :=
  ∀ numeral, IsNumeral numeral → placeholder numeral <:+: s → numeral.length ≤ Value.digitLimit

/-- Whether it can be told of a template that it is contiguous or that it is not: if it is not, the
indexes below those that it uses have to be counted and listed. -/
def IsTellable [Machine] (s : List Char) : Prop :=
  IsReadable s ∧ (IsContiguous s ∨
    ∀ i, Mentions s i → i < DiagnosticKind.countLimit ∧ i < Machine.listLimit)

variable {s : List Char} {i : Nat}

lemma mem_indexes_pieces_iff : i ∈ indexes (pieces s) ↔ Mentions s i := by
  obtain ⟨cut, hcut⟩ := Cut.exists_isCutOf s
  rw [hcut.pieces_eq, Cut.mem_indexes_pieces]
  constructor
  · rintro ⟨g, hg, hindex⟩
    exact ⟨g.numeral, hcut.isNumeral g hg, hcut.infix_of_mem hg, hindex⟩
  · rintro ⟨numeral, hnumeral, hoccurs, hvalue⟩
    obtain ⟨g, hg, rfl⟩ := hcut.exists_gap hnumeral hoccurs
    exact ⟨g, hg, hvalue⟩

lemma tooLong?_pieces_eq_none_iff :
    tooLong? Value.digitLimit (pieces s) = none ↔ IsReadable s := by
  obtain ⟨cut, hcut⟩ := Cut.exists_isCutOf s
  rw [hcut.pieces_eq, Cut.tooLong?_pieces_eq_none_iff]
  constructor
  · intro h numeral hnumeral hoccurs
    obtain ⟨g, hg, rfl⟩ := hcut.exists_gap hnumeral hoccurs
    exact h g hg
  · exact fun h g hg => h _ (hcut.isNumeral g hg) (hcut.infix_of_mem hg)

lemma isWellFormed_pieces_iff : isWellFormed (pieces s) = true ↔ IsContiguous s := by
  simp only [isWellFormed_iff, mem_indexes_pieces_iff, IsContiguous]
  have hbound : ∀ i, Mentions s i → i < arity (pieces s) := by
    simp only [← mem_indexes_pieces_iff]
    exact arity_le_iff.1 le_rfl
  constructor
  · exact fun hall => ⟨_, fun i => ⟨hbound i, hall i⟩⟩
  · rintro ⟨n, hn⟩ i hi
    have hle : arity (pieces s) ≤ n :=
      arity_le_iff.2 fun j hj => (hn j).1 (mem_indexes_pieces_iff.1 hj)
    exact (hn i).2 (by omega)

end Template

namespace DiagnosticKind

variable [Machine] {code : DiagnosticKind}

/-- What is found out about a template that can be read. -/
lemma isWellFormed_of_isReadable (h : Template.IsReadable code.template.toList) :
    code.isWellFormed =
      if Template.isWellFormed code.pieces then .ok true
      else if countLimit < Template.arity code.pieces then .error .overflow
      else if Machine.listLimit < Template.arity code.pieces then .error .outOfMemory
      else .ok false :=
  code.withPieces_of_none (Template.tooLong?_pieces_eq_none_iff.2 h) _

lemma isReadable_of_isWellFormed {b : Bool} (h : code.isWellFormed = .ok b) :
    Template.IsReadable code.template.toList := by
  by_contra hlong
  rw [← Template.tooLong?_pieces_eq_none_iff, ← Ne, Option.ne_none_iff_exists'] at hlong
  obtain ⟨width, hwidth⟩ := hlong
  rw [isWellFormed, code.withPieces_of_some hwidth] at h
  cases h

/-- The answer of the check of a template is right. -/
lemma isContiguous_iff_of_isWellFormed {b : Bool} (h : code.isWellFormed = .ok b) :
    Template.IsContiguous code.template.toList ↔ b = true := by
  have hiff : Template.isWellFormed code.pieces = true ↔ _ := Template.isWellFormed_pieces_iff
  rw [isWellFormed_of_isReadable (isReadable_of_isWellFormed h)] at h
  rw [← hiff]
  split_ifs at h with hform <;> cases h <;> simp [hform]

lemma isWellFormed_eq_ok_true_iff : code.isWellFormed = .ok true ↔
    Template.IsContiguous code.template.toList ∧ Template.IsReadable code.template.toList := by
  constructor
  · exact fun h => ⟨(isContiguous_iff_of_isWellFormed h).2 rfl, isReadable_of_isWellFormed h⟩
  · rintro ⟨hcontiguous, hread⟩
    rw [isWellFormed_of_isReadable hread]
    exact if_pos (Template.isWellFormed_pieces_iff.2 hcontiguous)

/-- **Which templates can be checked.** -/
theorem isCheckable_iff : code.IsCheckable ↔ Template.IsTellable code.template.toList := by
  have hiff : Template.isWellFormed code.pieces = true ↔ _ := Template.isWellFormed_pieces_iff
  have harity : (Template.arity code.pieces ≤ countLimit ∧
        Template.arity code.pieces ≤ Machine.listLimit) ↔
      ∀ i, Template.Mentions code.template.toList i → i < countLimit ∧ i < Machine.listLimit := by
    simp only [← Template.mem_indexes_pieces_iff, Template.arity_le_iff, ← forall₂_and]
    rfl
  rw [Template.IsTellable, ← hiff, ← harity]
  constructor
  · rintro ⟨b, hb⟩
    have hread := isReadable_of_isWellFormed hb
    refine ⟨hread, ?_⟩
    rw [isWellFormed_of_isReadable hread] at hb
    split_ifs at hb with hform hcount hlist
    · exact .inl hform
    · exact .inr ⟨Nat.le_of_not_lt hcount, Nat.le_of_not_lt hlist⟩
  · rintro ⟨hread, hform⟩
    rw [IsCheckable, isWellFormed_of_isReadable hread]
    split_ifs with hwell hcount hlist
    · exact ⟨true, rfl⟩
    · exact absurd (hform.resolve_left hwell) (by omega)
    · exact absurd (hform.resolve_left hwell) (by omega)
    · exact ⟨false, rfl⟩

end DiagnosticKind

/-! ### Faults and their places -/

/-- Whether a rule declares a kind, or something else. -/
def Rule.Declares (r : Rule) (k : DeclaredKind) : Prop :=
  ∃ card, r.card = some card ∧ k ∈ card.codes

namespace RuleSet

/-- A list of rules in which nothing is wrong. -/
structure IsFaultless (rules : List Rule) : Prop where
  /-- Every rule has a card and can register, and declares something. -/
  rule : ∀ r ∈ rules, ∃ card, r.card = some card ∧ r.setup.isSome = true ∧ card.codes ≠ []
  /-- Everything that is declared is a kind of its rule, whose template leaves out no argument. -/
  entry : ∀ r ∈ rules, ∀ card, r.card = some card → ∀ k ∈ card.codes,
    ∃ code, k = .kind code ∧ code.name = card.name ∧
      Template.IsContiguous code.template.toList
  /-- No two rules share a name. -/
  names : (rules.filterMap Rule.name?).Nodup
  /-- No identifier is declared twice. -/
  ids : (rules.flatMap Rule.kindIds).Nodup

/-- A place in a list of rules where something can be wrong. -/
inductive Place where
  /-- A rule, with the rules before it. -/
  | rule (before : List Rule) (rule : Rule)
  /-- An entry of the card of a rule with a name, with the identifiers declared before it and the
  names of the rules that declared them. -/
  | entry (declared : List (String × String)) (rule : String) (entry : DeclaredKind)

/-- What is wrong at a place. -/
inductive Place.Offends [Machine] : Place → RuleProblem → Prop where
  /-- The rule has no card. -/
  | noCard {before : List Rule} {r : Rule} {shown : String} (hcard : r.card = none)
    (hshown : r.object.quoted = .ok shown) : Offends (.rule before r) (.noCard shown)
  /-- The rule cannot register. -/
  | noSetup {before : List Rule} {r : Rule} {card : RuleCard} (hcard : r.card = some card)
    (hsetup : r.setup = none) : Offends (.rule before r) (.noSetup card.name)
  /-- A rule before it has the same name. -/
  | duplicateName {before : List Rule} {r : Rule} {card : RuleCard} (hcard : r.card = some card)
    (hname : card.name ∈ before.filterMap Rule.name?) :
    Offends (.rule before r) (.duplicateName card.name)
  /-- The rule declares nothing. -/
  | noKinds {before : List Rule} {r : Rule} {card : RuleCard} (hcard : r.card = some card)
    (hcodes : card.codes = []) : Offends (.rule before r) (.noKinds card.name)
  /-- The entry is not a kind. -/
  | notAKind {declared : List (String × String)} {rule shown : String} {value : Value}
    (hshown : value.quoted = .ok shown) :
    Offends (.entry declared rule (.other value)) (.notAKind rule shown)
  /-- The kind belongs to another rule. -/
  | foreignKind {declared : List (String × String)} {rule : String} {code : DiagnosticKind}
    (hname : code.name ≠ rule) :
    Offends (.entry declared rule (.kind code)) (.foreignKind rule code.id code.name)
  /-- The template leaves out an argument; the problem tells the indexes it uses. -/
  | unusedArgument {declared : List (String × String)} {rule : String} {code : DiagnosticKind}
    {slots : List Nat} {text : String} (hgap : ¬Template.IsContiguous code.template.toList)
    (hslots : ∀ i, i ∈ slots ↔ Template.Mentions code.template.toList i)
    (hsorted : slots.Pairwise (· < ·)) (htext : slotsText slots = .ok text) :
    Offends (.entry declared rule (.kind code)) (.unusedArgument code.id text)
  /-- A rule of another name was the last to declare the identifier. -/
  | sharedId {declared : List (String × String)} {rule owner : String} {code : DiagnosticKind}
    (howner : declared.reverse.lookup code.id = some owner) (hother : owner ≠ rule) :
    Offends (.entry declared rule (.kind code)) (.sharedId code.id owner rule)
  /-- A rule of the same name was the last to declare the identifier. -/
  | repeatedId {declared : List (String × String)} {rule : String} {code : DiagnosticKind}
    (howner : declared.reverse.lookup code.id = some rule) :
    Offends (.entry declared rule (.kind code)) (.repeatedId rule code.id)

/-- The identifiers that entries declare, with the name of their rule. -/
def declarations (rule : String) (entries : List DeclaredKind) : List (String × String) :=
  (entries.filterMap DeclaredKind.kindId?).map (·, rule)

/-- The identifiers that rules declare, each with the name of its rule. -/
def declarationsOf (rules : List Rule) : List (String × String) :=
  rules.flatMap fun r => r.kindIds.map (·, r.name?.getD "")

/-- The entries of a card, each with what was declared before it. -/
def placesOfEntries (declared : List (String × String)) (rule : String) :
    List DeclaredKind → List Place
  | [] => []
  | k :: rest =>
    .entry declared rule k :: placesOfEntries (declared ++ declarations rule [k]) rule rest

/-- A rule and the entries of its card. -/
def placesOfRule (before : List Rule) (r : Rule) : List Place :=
  .rule before r :: match r.card with
    | none => []
    | some card => placesOfEntries (declarationsOf before) card.name card.codes

/-- The rules that come after others, each with the entries of its card. -/
def placesAfter : List Rule → List Rule → List Place
  | _, [] => []
  | before, r :: rest => placesOfRule before r ++ placesAfter (before ++ [r]) rest

/-- All places of a list of rules. -/
def places (rules : List Rule) : List Place := placesAfter [] rules

/-- A list of problems that holds exactly what is wrong at a place. -/
def IsShare [Machine] (place : Place) (share : List RuleProblem) : Prop :=
  ∀ p, p ∈ share ↔ place.Offends p

/-- A list of problems that is put together from what is wrong at each of some places. -/
def IsVerdict [Machine] (places : List Place) (problems : List RuleProblem) : Prop :=
  ∃ shares, problems = shares.flatten ∧ List.Forall₂ IsShare places shares

/-! ### The share of each place -/

section Shares

variable [Machine] {rule : String} {code : DiagnosticKind} {declared : List (String × String)}
  {share problems : List RuleProblem}

/-- The share of an entry that is not a kind. -/
lemma isShare_other {value : Value} {shown : String} (hshown : value.quoted = .ok shown) :
    IsShare (.entry declared rule (.other value)) [.notAKind rule shown] := by
  intro p
  rw [List.mem_singleton]
  constructor
  · rintro rfl
    exact .notAKind hshown
  · rintro ⟨⟩
    rename_i shown' hshown'
    cases hshown.symm.trans hshown'
    rfl

/-- The problem of a template tells the indexes that it uses. -/
lemma mem_templateProblems_iff (h : templateProblems code = .ok share) (p : RuleProblem) :
    p ∈ share ↔ ¬Template.IsContiguous code.template.toList ∧ ∃ slots text,
      (∀ i, i ∈ slots ↔ Template.Mentions code.template.toList i) ∧ slots.Pairwise (· < ·) ∧
        slotsText slots = .ok text ∧ p = .unusedArgument code.id text := by
  obtain ⟨b, hform, h⟩ := Except.bind_eq_ok_iff.1 h
  rw [DiagnosticKind.isContiguous_iff_of_isWellFormed hform]
  cases b with
  | true =>
    cases h
    simp
  | false =>
    have hslots := (DiagnosticKind.exists_slotIndexes hform).1
    have hmem : ∀ i, i ∈ Template.indexes code.pieces ↔
        Template.Mentions code.template.toList i := fun i => Template.mem_indexes_pieces_iff
    have hsorted := Template.pairwise_indexes code.pieces
    obtain ⟨slots, hslots', h⟩ := Except.bind_eq_ok_iff.1 h
    cases hslots.symm.trans hslots'
    obtain ⟨text, htold, h⟩ := Except.bind_eq_ok_iff.1 h
    have htext := Fault.told_eq_ok_iff.1 htold
    cases h
    rw [List.mem_singleton]
    constructor
    · intro hp
      exact ⟨by simp, _, text, hmem, hsorted, htext, hp⟩
    · rintro ⟨-, slots, text', hmem', hsorted', htext', rfl⟩
      cases hsorted'.eq_of_mem_iff hsorted fun i => (hmem' i).trans (hmem i).symm
      cases htext.symm.trans htext'
      rfl

lemma isShare_codeProblems
    (h : codeProblems rule code (declared.reverse.lookup code.id) = .ok share) :
    IsShare (.entry declared rule (.kind code)) share := by
  obtain ⟨template, htemplate, h⟩ := Except.bind_eq_ok_iff.1 h
  have hmem := mem_templateProblems_iff htemplate
  cases h
  intro p
  rw [List.mem_append, List.mem_append, hmem]
  constructor
  · rintro ((hforeign | ⟨hgap, slots, text, hslots, hsorted, htext, rfl⟩) | hid)
    · split_ifs at hforeign with hname
      · rw [List.mem_singleton.1 hforeign]
        exact .foreignKind hname
      · cases hforeign
    · exact .unusedArgument hgap hslots hsorted htext
    · rcases howner : declared.reverse.lookup code.id with _ | owner <;> rw [howner] at hid
      · cases hid
      · simp only at hid
        split_ifs at hid with hother
        · rw [List.mem_singleton.1 hid]
          exact .sharedId howner hother
        · rw [List.mem_singleton.1 hid]
          exact .repeatedId (howner.trans (congrArg some (not_not.1 hother)))
  · intro hoffends
    cases hoffends with
    | foreignKind hname => exact .inl (.inl (by simp [hname]))
    | unusedArgument hgap hslots hsorted htext =>
      exact .inl (.inr ⟨hgap, _, _, hslots, hsorted, htext, rfl⟩)
    | sharedId howner hother => exact .inr (by simp [howner, hother])
    | repeatedId howner => exact .inr (by simp [howner])

lemma IsVerdict.nil : IsVerdict [] [] := ⟨[], rfl, .nil⟩

lemma IsVerdict.cons {place : Place} {places : List Place} (hshare : IsShare place share)
    (hrest : IsVerdict places problems) : IsVerdict (place :: places) (share ++ problems) := by
  obtain ⟨shares, rfl, hshares⟩ := hrest
  exact ⟨share :: shares, rfl, .cons hshare hshares⟩

lemma IsVerdict.append {places more : List Place} {problems' : List RuleProblem}
    (h : IsVerdict places problems) (hmore : IsVerdict more problems') :
    IsVerdict (places ++ more) (problems ++ problems') := by
  obtain ⟨shares, rfl, hshares⟩ := h
  obtain ⟨shares', rfl, hshares'⟩ := hmore
  exact ⟨shares ++ shares', List.flatten_append.symm, List.rel_append hshares hshares'⟩

/-- The entries of a card are all looked at, and then what they declare is met. -/
lemma isVerdict_codesProblems {entries : List DeclaredKind} {met : List (String × String)}
    (h : codesProblems rule entries declared.reverse = .ok (problems, met)) :
    IsVerdict (placesOfEntries declared rule entries) problems ∧
      met = (declared ++ declarations rule entries).reverse := by
  induction entries generalizing declared problems with
  | nil =>
    cases h
    exact ⟨.nil, by simp [declarations]⟩
  | cons k rest ih =>
    cases k with
    | other value =>
      rw [codesProblems] at h
      obtain ⟨shown, htold, h⟩ := Except.bind_eq_ok_iff.1 h
      obtain ⟨⟨more, met'⟩, hrest, h⟩ := Except.bind_eq_ok_iff.1 h
      cases h
      obtain ⟨hverdict, hmet⟩ := ih hrest
      have hnothing : declared ++ declarations rule [.other value] = declared :=
        List.append_nil _
      refine ⟨?_, hmet⟩
      rw [placesOfEntries, hnothing]
      exact .cons (isShare_other (Fault.told_eq_ok_iff.1 htold)) hverdict
    | kind code =>
      have hmore : ((code.id, rule) :: declared.reverse) =
          (declared ++ declarations rule [.kind code]).reverse := by
        rw [List.reverse_append]
        rfl
      rw [codesProblems, hmore] at h
      obtain ⟨own, hown, h⟩ := Except.bind_eq_ok_iff.1 h
      obtain ⟨⟨more, met'⟩, hrest, h⟩ := Except.bind_eq_ok_iff.1 h
      cases h
      obtain ⟨hverdict, hmet⟩ := ih hrest
      refine ⟨.cons (isShare_codeProblems hown) hverdict, ?_⟩
      rw [hmet, List.append_assoc]
      rfl

end Shares

/-- Whether what is met while rules are checked is what these rules are called and declare. -/
structure Met.Records (met : Met) (before : List Rule) : Prop where
  names : ∀ name, name ∈ met.names ↔ name ∈ before.filterMap Rule.name?
  owners : met.owners = (declarationsOf before).reverse

section Rules

variable [Machine] {before : List Rule} {r : Rule} {met after : Met} {problems : List RuleProblem}

/-- The share of a rule with a card. -/
lemma isShare_rule {card : RuleCard} (hcard : r.card = some card) (hmet : met.Records before) :
    IsShare (.rule before r) ((if r.setup.isSome then [] else [.noSetup card.name]) ++
      (if met.names.contains card.name then [.duplicateName card.name] else []) ++
      (if card.codes.isEmpty then [.noKinds card.name] else [])) := by
  have hmem : met.names.contains card.name = true ↔
      card.name ∈ before.filterMap Rule.name? := by
    rw [List.contains_iff_mem, hmet.names]
  intro p
  rw [List.mem_append, List.mem_append]
  constructor
  · rintro ((hp | hp) | hp)
    · split_ifs at hp with hsome
      · cases hp
      · rw [List.mem_singleton.1 hp]
        exact .noSetup hcard (by simpa using hsome)
    · split_ifs at hp with hold
      · rw [List.mem_singleton.1 hp]
        exact .duplicateName hcard (hmem.1 hold)
      · cases hp
    · split_ifs at hp with hempty
      · rw [List.mem_singleton.1 hp]
        exact .noKinds hcard (List.isEmpty_iff.1 hempty)
      · cases hp
  · intro hoffends
    cases hoffends with
    | noCard hnone =>
      rw [hcard] at hnone
      cases hnone
    | noSetup hcard' hnone =>
      cases hcard.symm.trans hcard'
      exact .inl (.inl (by simp [hnone]))
    | duplicateName hcard' hold =>
      cases hcard.symm.trans hcard'
      rw [if_pos (hmem.2 hold)]
      exact .inl (.inr (List.mem_singleton_self _))
    | noKinds hcard' hempty =>
      cases hcard.symm.trans hcard'
      exact .inr (by simp [hempty])

/-- The share of an object without a card. -/
lemma isShare_of_card_eq_none {shown : String} (hcard : r.card = none)
    (hshown : r.object.quoted = .ok shown) : IsShare (.rule before r) [.noCard shown] := by
  intro p
  rw [List.mem_singleton]
  constructor
  · rintro rfl
    exact .noCard hcard hshown
  · intro hoffends
    cases hoffends with
    | noCard _ hshown' =>
      cases hshown.symm.trans hshown'
      rfl
    | noSetup hcard' | duplicateName hcard' | noKinds hcard' =>
      rw [hcard] at hcard'
      cases hcard'

/-- A rule is looked at with all entries of its card, and then it is met. -/
lemma isVerdict_ruleProblems (hmet : met.Records before)
    (h : ruleProblems r met = .ok (problems, after)) :
    IsVerdict (placesOfRule before r) problems ∧ after.Records (before ++ [r]) := by
  rcases hcard : r.card with _ | card
  · rw [ruleProblems, hcard] at h
    obtain ⟨shown, htold, h⟩ := Except.bind_eq_ok_iff.1 h
    cases h
    have hname : r.name? = none := by rw [Rule.name?, hcard]; rfl
    have hids : r.kindIds = [] := by rw [Rule.kindIds, hcard]; rfl
    refine ⟨?_, ?_, ?_⟩
    · rw [placesOfRule, hcard]
      exact IsVerdict.cons (isShare_of_card_eq_none hcard (Fault.told_eq_ok_iff.1 htold)) .nil
    · simpa [hname] using hmet.names
    · simpa [declarationsOf, hids] using hmet.owners
  · have hname := r.name?_of_card hcard
    have hids := r.kindIds_of_card hcard
    rw [ruleProblems_eq_map hcard, hmet.owners] at h
    rcases hcodes : codesProblems card.name card.codes (declarationsOf before).reverse with
      f | ⟨entries, owners⟩ <;> rw [hcodes] at h <;> cases h
    obtain ⟨hverdict, howners⟩ := isVerdict_codesProblems hcodes
    refine ⟨?_, fun name => ?_, ?_⟩
    · rw [placesOfRule, hcard]
      exact .cons (isShare_rule hcard hmet) hverdict
    · simp [hname, hmet.names, or_comm]
    · simp [howners, declarationsOf, declarations, hname, hids]

lemma isVerdict_problemsFrom {rules : List Rule} (hmet : met.Records before)
    (h : problemsFrom rules met = .ok problems) :
    IsVerdict (placesAfter before rules) problems := by
  induction rules generalizing before met problems with
  | nil =>
    cases h
    exact .nil
  | cons r rest ih =>
    rw [problemsFrom] at h
    obtain ⟨⟨own, after⟩, hrule, h⟩ := Except.bind_eq_ok_iff.1 h
    obtain ⟨more, hrest, h⟩ := Except.bind_eq_ok_iff.1 h
    cases h
    obtain ⟨hverdict, hrecords⟩ := isVerdict_ruleProblems hmet hrule
    exact hverdict.append (ih hrecords hrest)

end Rules

/-! ### The verdict -/

section

variable [Machine]

/-- What can be told of some rules when they are checked. -/
structure AreTellable (rules : List Rule) : Prop where
  /-- The templates of all kinds that they declare can be told. -/
  template : ∀ r ∈ rules, ∀ code, r.Declares (.kind code) →
    Template.IsTellable code.template.toList
  /-- What they declare that is not a kind has a text. -/
  entry : ∀ r ∈ rules, ∀ value, r.Declares (.other value) → ∃ s, value.quoted = .ok s
  /-- A rule without a card has a text. -/
  object : ∀ r ∈ rules, r.card = none → ∃ s, r.object.quoted = .ok s

lemma areTellable_iff (rules : List Rule) :
    AreTellable rules ↔ ∀ r ∈ rules, r.IsCheckable := by
  constructor
  · intro h r hr
    unfold Rule.IsCheckable
    rcases hcard : r.card with _ | card
    · exact h.object r hr hcard
    · intro k hk
      cases k with
      | kind code => exact DiagnosticKind.isCheckable_iff.2 (h.template r hr _ ⟨card, hcard, hk⟩)
      | other value => exact h.entry r hr value ⟨card, hcard, hk⟩
  · intro h
    have hentry : ∀ r ∈ rules, ∀ k, r.Declares k → k.IsCheckable := by
      rintro r hr k ⟨card, hcard, hk⟩
      have hr := h r hr
      rw [Rule.IsCheckable, hcard] at hr
      exact hr k hk
    refine ⟨fun r hr code hcode => DiagnosticKind.isCheckable_iff.1 (hentry r hr _ hcode),
      fun r hr value => hentry r hr (.other value), fun r hr hcard => ?_⟩
    have hr := h r hr
    rwa [Rule.IsCheckable, hcard] at hr

/-- Of what a sound rule declares everything can be told. -/
lemma Sound.areTellable {rules : List Rule} (h : Sound rules) : AreTellable rules := by
  refine (areTellable_iff rules).2 fun r hr => ?_
  obtain ⟨card, hcard, -, -, hown⟩ := h.rule r hr
  rw [Rule.IsCheckable, hcard]
  intro k hk
  obtain ⟨code, rfl, -, hform⟩ := hown k hk
  exact ⟨true, hform⟩

/-- The sound lists are the faultless ones with templates that can be told. -/
lemma sound_iff (rules : List Rule) : Sound rules ↔ IsFaultless rules ∧ AreTellable rules := by
  constructor
  · intro h
    refine ⟨⟨fun r hr => ?_, fun r hr card hcard k hk => ?_, h.names, h.ids⟩, h.areTellable⟩
    · obtain ⟨card, hcard, hsetup, hcodes, -⟩ := h.rule r hr
      exact ⟨card, hcard, hsetup, hcodes⟩
    · obtain ⟨card', hcard', -, -, hown⟩ := h.rule r hr
      cases hcard.symm.trans hcard'
      obtain ⟨code, hcode, hname, hform⟩ := hown k hk
      exact ⟨code, hcode, hname, (DiagnosticKind.isWellFormed_eq_ok_true_iff.1 hform).1⟩
  · rintro ⟨h, htell⟩
    refine ⟨fun r hr => ?_, h.names, h.ids⟩
    obtain ⟨card, hcard, hsetup, hcodes⟩ := h.rule r hr
    refine ⟨card, hcard, hsetup, hcodes, fun k hk => ?_⟩
    obtain ⟨code, rfl, hname, hform⟩ := h.entry r hr card hcard k hk
    exact ⟨code, rfl, hname, DiagnosticKind.isWellFormed_eq_ok_true_iff.2
      ⟨hform, (htell.template r hr code ⟨card, hcard, hk⟩).1⟩⟩

/-- The problems with which a list of rules is refused are those that were found. -/
lemma problems_of_validate {rules : List Rule} {found : List RuleProblem}
    (h : validate rules = .error (.invalidRuleSet found)) : problems rules = .ok found := by
  have htells : Tells _ (problems rules) := tells_problemsFrom rules {}
  unfold validate at h
  rcases hproblems : problems rules with g | _ | ⟨p, ps⟩ <;> rw [hproblems] at h htells <;> cases h
  · exact absurd rfl (htells.2 found)
  · rfl

/-- **The verdict on a list of rules.**  The checks pass exactly the faultless lists in which
everything can be told.  If they fail, then with a list of problems exactly if everything can be
told; this is a registration fault, and it lists everything that is wrong at any rule and any entry
of a card, place by place. -/
theorem validate_verdict (rules : List Rule) :
    (validate rules = .ok () ↔ IsFaultless rules ∧ AreTellable rules) ∧
    ∀ f, validate rules = .error f →
      ((∃ problems, f = .invalidRuleSet problems) ↔ AreTellable rules) ∧
      (AreTellable rules → ∃ problems, f = .invalidRuleSet problems ∧
        f.faultClass = .ruleRegistration ∧ IsVerdict (places rules) problems) := by
  refine ⟨(validate_eq_ok_iff rules).trans (sound_iff rules), fun f hf => ?_⟩
  have hlisted : (∃ problems, f = .invalidRuleSet problems) ↔ AreTellable rules :=
    (exists_problems_iff hf).trans (areTellable_iff rules).symm
  refine ⟨hlisted, fun htell => ?_⟩
  obtain ⟨found, rfl⟩ := hlisted.2 htell
  have hproblems := problems_of_validate hf
  exact ⟨found, rfl, rfl, isVerdict_problemsFrom ⟨fun _ => by simp, rfl⟩ hproblems⟩

end

/-- An object without a card. -/
def unnamedRule : Rule where
  object := .string "bare"
  card := none
  setup := none

/-- A kind whose template leaves out its first argument. -/
def gapKind : DiagnosticKind :=
  ⟨"gap", "gap.found", String.ofList (Template.placeholder ['1']), "warn", none⟩

/-- A rule that declares some entries. -/
def declaringRule (name : String) (entries : List DeclaredKind) : Rule where
  object := .string name
  card := some ⟨name, name, .errors, entries, name⟩
  setup := some (fun _ => .done)

/-- A list with an object that has no card and with a rule that stands there twice. -/
def gapRules : List Rule :=
  let rule := declaringRule "gap" [.kind gapKind, .other (.bool true), .kind gapKind]
  [unnamedRule, rule, rule]

/-- What is wrong with this list. -/
def gapProblems : List RuleProblem :=
  [.noCard "'bare'",
    .unusedArgument "gap.found" "[1]", .notAKind "gap" "True",
    .unusedArgument "gap.found" "[1]", .repeatedId "gap" "gap.found",
    .duplicateName "gap",
    .unusedArgument "gap.found" "[1]", .repeatedId "gap" "gap.found", .notAKind "gap" "True",
    .unusedArgument "gap.found" "[1]", .repeatedId "gap" "gap.found"]

lemma isCutOf_gapKind : Template.Cut.IsCutOf ⟨[], [⟨['1'], []⟩]⟩ gapKind.template.toList := by
  have hnone : ¬Template.HasPlaceholder [] := by
    rintro ⟨numeral, -, hoccurs⟩
    cases List.infix_nil.1 hoccurs
  refine ⟨by decide, List.forall_mem_singleton.2 ⟨by decide, ?_⟩, hnone,
    List.forall_mem_singleton.2 hnone⟩
  exact List.forall_mem_singleton.2 ⟨1, by decide⟩

attribute [local instance] Machine.small

lemma templateProblems_gapKind :
    templateProblems gapKind = .ok [.unusedArgument "gap.found" "[1]"] := by
  have hread : ∀ g ∈ [Template.Gap.mk ['1'] []], g.numeral.length ≤ Value.digitLimit := by decide
  have hform : gapKind.isWellFormed = .ok false := by
    rw [DiagnosticKind.isWellFormed, DiagnosticKind.withPieces_of_isCutOf isCutOf_gapKind hread]
    rfl
  have hslots : gapKind.slotIndexes = .ok [1] := by
    rw [DiagnosticKind.slotIndexes, DiagnosticKind.withPieces_of_isCutOf isCutOf_gapKind hread]
    rfl
  have hone : Value.decimal 1 = .ok "1" :=
    Value.decimal_of_lt (Nat.lt_of_lt_of_le (by decide) Value.ten_le_leastLong)
  have htext : slotsText [1] = .ok "[1]" := by
    show Value.quotedWithin (Machine.nesting + 2) (.list [.int 1]) = _
    simp only [Value.quotedWithin, Value.itemsWithin, hone]
    rfl
  simp only [templateProblems, hform, hslots, htext, Bind.bind, Except.bind, Fault.told_ok]
  rfl

theorem validate_verdict_gaps :
    validate gapRules = .error (.invalidRuleSet gapProblems) ∧
      IsVerdict (places gapRules) gapProblems := by
  have hvalidate : validate gapRules = .error (.invalidRuleSet gapProblems) := by
    have hcode : ∀ owner, codeProblems "gap" gapKind owner =
        .ok (.unusedArgument "gap.found" "[1]" :: owner.elim [] fun other =>
          if other ≠ "gap" then [.sharedId "gap.found" other "gap"]
          else [.repeatedId "gap" "gap.found"]) := by
      intro owner
      unfold codeProblems
      rw [templateProblems_gapKind]
      cases owner <;> rfl
    simp only [validate, problems, problemsFrom, ruleProblems, gapRules, unnamedRule,
      declaringRule, codesProblems, hcode]
    rfl
  obtain ⟨hlisted, hlists⟩ := (validate_verdict gapRules).2 _ hvalidate
  obtain ⟨_, ⟨⟩, -, hverdict⟩ := hlists (hlisted.1 ⟨_, rfl⟩)
  exact ⟨hvalidate, hverdict⟩

/-- Not every faulty list is refused with its problems: of a template with a large index it cannot
be told that it leaves out an argument. -/
theorem not_forall_faulty_refused :
    ¬ ∀ rules, ¬IsFaultless rules →
      ∃ problems, validate rules = .error (.invalidRuleSet problems) := by
  intro hall
  have hfaulty : ¬IsFaultless [unnamedRule,
      declaringRule "wide" [.kind DiagnosticKind.wideKind]] := by
    intro h
    obtain ⟨card, hcard, -⟩ := h.rule unnamedRule (by simp)
    cases hcard
  obtain ⟨problems, hproblems⟩ := hall _ hfaulty
  obtain ⟨b, hb⟩ := (exists_problems_iff hproblems).1 ⟨problems, rfl⟩ _
    (List.mem_cons_of_mem _ (List.mem_singleton_self _)) _ (List.mem_singleton_self _)
  rw [DiagnosticKind.isWellFormed_wideKind] at hb
  cases hb

end RuleSet

end TreeLint
