/-
The registry as a ledger of the calls to it.

A registry is called in any order: to add a handler, to freeze it, and to look up what it
holds.  After any calls it holds exactly the handlers that were admitted before it was
frozen, for each node kind in the order of the calls (`Registry.records_after`), and what
it does on the next call is told by these calls alone.  A part of the calls leaves its size as
it was exactly if it adds no handler (`Registry.size_after_append`), so the size tells which
rules registered nothing.

A rule calls the registry when it registers: `Script.calls` lists what its script tries to
add in a session, whether it is refused or not, and the script leaves the registry as these
calls do (`Script.registry_run`).  `RuleSet.registry_law` puts this together.

A handler that is refused because it is for no node kind is refused with a text that shows
what it is for.  If there is no such text, the refusal is another fault:
`RuleSet.not_forall_unknown_kind_refused`.
-/
import Mathlib.Algebra.BigOperators.Group.List.Basic
import Mathlib.Algebra.GroupWithZero.Nat
import Mathlib.Data.List.Induction
import Mathlib.Data.List.TakeWhile
import TreeLint.Proofs.Rule.Enrollment
import TreeLint.Proofs.Value.Telling
namespace TreeLint

/-- Whether a handler may be added to a registry for some rules, as long as it is not frozen: it can
be called, it is for what names a node kind, and it stands under the name of one of the rules. -/
structure Registration.IsAdmitted (allowed : Option (List String)) (reg : Registration) : Prop where
  kind : ∃ kind : NodeKind, reg.kind = .string kind.name
  handler : ∃ handler, reg.handler = some handler
  rule : ∀ names, allowed = some names → reg.rule ∈ names

namespace Registry

/-- A call to a registry. -/
inductive Call where
  /-- A rule adds a handler. -/
  | add (owner : String) (reg : Registration)
  /-- The registry is frozen. -/
  | freeze
  /-- The handlers for a node kind are looked up. -/
  | lookup (kind : NodeKind)

/-- Whether a call freezes the registry. -/
def Call.isFreeze : Call → Bool
  | freeze => true
  | _ => false

/-- The handler that a call adds for a node kind to a registry that is not frozen. -/
def Call.processor? (allowed : Option (List String)) (kind : NodeKind) : Call → Option Processor
  | add owner reg =>
    if allowed.all (·.contains reg.rule) then reg.processor? owner kind else none
  | _ => none

/-- The handlers that calls add for a node kind: those that are admitted before the first call that
freezes the registry. -/
def added (allowed : Option (List String)) (kind : NodeKind) (calls : List Call) :
    List Processor :=
  (calls.takeWhile (fun c => !c.isFreeze)).filterMap (Call.processor? allowed kind)

/-- The registry after a call; a handler that is refused leaves it as it was. -/
def step [Machine] (r : Registry) : Call → Registry
  | .add owner reg =>
    match r.add owner reg with
    | .ok after => after
    | .error _ => r
  | .freeze => r.freeze
  | .lookup _ => r

/-- The registry after some calls. -/
def run [Machine] (r : Registry) (calls : List Call) : Registry := calls.foldl step r

/-- The registry for some rules after some calls. -/
def after [Machine] (allowed : Option (List String)) (calls : List Call) : Registry :=
  run { allowed := allowed } calls

/-- What a registry for some rules is after some calls. -/
structure Records (allowed : Option (List String)) (calls : List Call) (r : Registry) : Prop where
  allowed_eq : r.allowed = allowed
  frozen_iff : r.frozen = true ↔ .freeze ∈ calls
  processorsFor_eq : ∀ kind, r.processorsFor kind = added allowed kind calls
  size_eq : r.size = (NodeKind.all.map fun kind => (r.processorsFor kind).length).sum

/-! ### The handlers that calls add -/

section Added

variable {allowed : Option (List String)} {kind : NodeKind} {calls more : List Call}
  {reg : Registration} {owner : String}

lemma kindOf?_eq_some_iff {v : Value} : kindOf? v = some kind ↔ v = .string kind.name := by
  constructor
  · intro h
    cases v with
    | string s => rw [NodeKind.name_of_ofName? h]
    | _ => cases h
  · rintro rfl
    exact kind.ofName?_name

lemma all_contains_iff {name : String} : allowed.all (·.contains name) = true ↔
    ∀ names, allowed = some names → name ∈ names := by
  cases allowed <;> simp

/-- What is called after the registry is frozen adds nothing. -/
lemma added_append_of_mem (h : .freeze ∈ calls) (more : List Call) :
    added allowed kind (calls ++ more) = added allowed kind calls := by
  obtain ⟨first, rest, rfl⟩ := List.append_of_mem h
  have hstop : ∀ tail : List Call, (first ++ .freeze :: tail).takeWhile (fun c => !c.isFreeze) =
      first.takeWhile (fun c => !c.isFreeze) := by
    intro tail
    rw [List.takeWhile_append]
    split_ifs with hall
    · rw [List.takeWhile_cons_of_neg (by simp [Call.isFreeze]), List.append_nil]
      exact ((List.takeWhile_prefix _).eq_of_length hall).symm
    · rfl
  rw [added, List.append_assoc, List.cons_append, hstop, added, hstop]

lemma added_append_of_not_mem (h : .freeze ∉ calls) (more : List Call) :
    added allowed kind (calls ++ more) = added allowed kind calls ++ added allowed kind more := by
  have hall : ∀ c ∈ calls, (!c.isFreeze) = true := by
    intro c hc
    cases c with
    | freeze => exact absurd hc h
    | _ => rfl
  have hself : calls.takeWhile (fun c => !c.isFreeze) = calls := List.takeWhile_eq_self_iff.2 hall
  rw [added, List.takeWhile_append_of_pos hall, List.filterMap_append, added, hself, added]

lemma added_singleton (c : Call) : added allowed kind [c] = (c.processor? allowed kind).toList := by
  cases c with
  | add owner reg =>
    rcases hadds : Call.processor? allowed kind (.add owner reg) <;>
      simp [added, Call.isFreeze, hadds]
  | _ => rfl

/-- A handler is added for a kind exactly if it is admitted for that kind. -/
lemma processor?_eq_some_iff {p : Processor} :
    Call.processor? allowed kind (.add owner reg) = some p ↔
      reg.IsAdmitted allowed ∧ reg.kind = .string kind.name ∧
        ∃ handler, reg.handler = some handler ∧ p = ⟨reg.rule, owner, handler⟩ := by
  rw [Call.processor?]
  constructor
  · intro h
    split_ifs at h with hrule
    rw [Registration.processor?] at h
    split_ifs at h with hkind
    obtain ⟨handler, hhandler, rfl⟩ := Option.map_eq_some_iff.1 h
    rw [kindOf?_eq_some_iff] at hkind
    exact ⟨⟨⟨kind, hkind⟩, ⟨handler, hhandler⟩, all_contains_iff.1 hrule⟩, hkind, handler,
      hhandler, rfl⟩
  · rintro ⟨hadmitted, hkind, handler, hhandler, rfl⟩
    rw [if_pos (all_contains_iff.2 hadmitted.rule), Registration.processor?,
      if_pos (kindOf?_eq_some_iff.2 hkind), hhandler]
    rfl

end Added

/-! ### One call -/

section Step

variable {allowed : Option (List String)} {calls : List Call} {r next : Registry} {owner : String}
  {reg : Registration}

/-- What a registry does with a handler.  One that is not admitted is refused with a registration
fault, unless what it is for cannot be shown. -/
lemma add_cases [Machine] (r : Registry) (owner : String) (reg : Registration) :
    (r.frozen = true ∧ ∃ f, r.add owner reg = .error f ∧ f.faultClass = .registryFrozen) ∨
    (r.frozen = false ∧ ¬reg.IsAdmitted r.allowed ∧ ∃ f, r.add owner reg = .error f ∧
      (∀ s, reg.kind.quoted = .ok s → f.faultClass = .ruleRegistration) ∧
      ∀ why, reg.kind.quoted = .error why → f = .text why) ∨
    (r.frozen = false ∧ reg.IsAdmitted r.allowed ∧ ∃ kind handler,
      reg.kind = .string (NodeKind.name kind) ∧ reg.handler = some handler ∧ r.add owner reg =
        .ok { r with processors := append kind ⟨reg.rule, owner, handler⟩ r.processors }) := by
  have hisAllowed : r.isAllowed reg.rule = true ↔
      ∀ names, r.allowed = some names → reg.rule ∈ names := by
    rw [← all_contains_iff, isAllowed]
    cases r.allowed <;> rfl
  unfold add
  cases hfrozen : r.frozen with
  | true => exact .inl ⟨rfl, _, rfl, rfl⟩
  | false =>
    rw [if_neg Bool.false_ne_true]
    rcases hkind : kindOf? reg.kind with _ | kind
    · refine .inr (.inl ⟨rfl, ?_, _, rfl, fun s hs => ?_, fun why hwhy => ?_⟩)
      · rintro ⟨⟨kind, hname⟩, -, -⟩
        rw [kindOf?_eq_some_iff.2 hname] at hkind
        cases hkind
      · rw [hs]
        rfl
      · rw [hwhy]
        rfl
    -- the name of a node kind can be shown
    have hname := kindOf?_eq_some_iff.1 hkind
    have hshown : ∀ why, reg.kind.quoted = .error why → ∀ f : Fault, f = .text why := by
      intro why hwhy
      rw [hname, Value.quoted_string] at hwhy
      cases hwhy
    rcases hhandler : reg.handler with _ | handler
    · refine .inr (.inl ⟨rfl, ?_, _, rfl, fun _ _ => rfl, fun why hwhy => hshown why hwhy _⟩)
      rintro ⟨-, ⟨handler, hsome⟩, -⟩
      rw [hsome] at hhandler
      cases hhandler
    by_cases hall : r.isAllowed reg.rule = true
    · exact .inr (.inr ⟨rfl, ⟨⟨kind, hname⟩, ⟨handler, hhandler⟩, hisAllowed.1 hall⟩, kind, handler,
        hname, rfl, if_pos hall⟩)
    · exact .inr (.inl ⟨rfl, fun h => hall (hisAllowed.2 h.rule), _, if_neg hall, fun _ _ => rfl,
        fun why hwhy => hshown why hwhy _⟩)

lemma length_flatMap_append (kind : NodeKind) (p : Processor)
    (table : List (NodeKind × List Processor)) :
    ((append kind p table).flatMap (·.2)).length = (table.flatMap (·.2)).length + 1 := by
  induction table with
  | nil => rfl
  | cons entry rest ih =>
    rw [append]
    split_ifs
    · simp only [List.flatMap_cons, List.length_append, List.length_singleton]
      omega
    · simp only [List.flatMap_cons, List.length_append, ih]
      omega

/-- An admitted handler is added for one kind. -/
lemma sum_processor?_of_isAdmitted (h : reg.IsAdmitted allowed) (owner : String) :
    (NodeKind.all.map fun kind =>
      (Call.processor? allowed kind (.add owner reg)).toList.length).sum = 1 := by
  obtain ⟨⟨kind, hkind⟩, ⟨handler, hhandler⟩, hrule⟩ := h
  have hall : ∀ other, (Call.processor? allowed other (.add owner reg)).toList.length =
      if kind = other then 1 else 0 := by
    intro other
    rw [Call.processor?, if_pos (all_contains_iff.2 hrule), Registration.processor?, hhandler,
      kindOf?_eq_some_iff.2 hkind]
    by_cases hother : kind = other <;> simp [hother]
  simp only [hall]
  cases kind <;> rfl

lemma Records.freeze_not_mem (h : Records allowed calls r) (hopen : r.frozen = false) :
    .freeze ∉ calls := by
  intro hmem
  rw [h.frozen_iff.2 hmem] at hopen
  cases hopen

/-- A call that changes neither the handlers nor whether the registry is frozen is recorded. -/
lemma Records.concat (h : Records allowed calls r) {c : Call} (hfreeze : c ≠ .freeze)
    (hnone : r.frozen = false → ∀ kind, c.processor? allowed kind = none) :
    Records allowed (calls ++ [c]) r := by
  refine ⟨h.allowed_eq, ?_, fun kind => ?_, h.size_eq⟩
  · rw [h.frozen_iff, List.mem_append, List.mem_singleton]
    exact ⟨.inl, fun hmem => hmem.resolve_right hfreeze.symm⟩
  · rw [h.processorsFor_eq]
    cases hfrozen : r.frozen with
    | true => rw [added_append_of_mem (h.frozen_iff.1 hfrozen)]
    | false =>
      rw [added_append_of_not_mem (h.freeze_not_mem hfrozen), added_singleton, hnone hfrozen kind]
      exact (List.append_nil _).symm

/-- A call is recorded. -/
lemma Records.step [Machine] (h : Records allowed calls r) (c : Call) :
    Records allowed (calls ++ [c]) (r.step c) := by
  cases c with
  | lookup kind => exact h.concat (fun hc => nomatch hc) fun _ _ => rfl
  | freeze =>
    refine ⟨h.allowed_eq, by simp [Registry.step], fun kind => ?_, h.size_eq⟩
    show r.processorsFor kind = _
    rw [h.processorsFor_eq]
    by_cases hmem : .freeze ∈ calls
    · rw [added_append_of_mem hmem]
    · rw [added_append_of_not_mem hmem, added_singleton]
      exact (List.append_nil _).symm
  | add owner reg =>
    rcases r.add_cases owner reg with ⟨hfrozen, f, hadd, -⟩ | ⟨hfrozen, hnot, f, hadd, -⟩ |
      ⟨hfrozen, hadmitted, kind, handler, -, -, hadd⟩ <;> simp only [Registry.step, hadd]
    · refine h.concat (fun hc => nomatch hc) fun hopen => ?_
      rw [hfrozen] at hopen
      cases hopen
    · refine h.concat (fun hc => nomatch hc) fun _ kind => ?_
      rw [h.allowed_eq] at hnot
      rw [Option.eq_none_iff_forall_ne_some]
      exact fun p hp => hnot (processor?_eq_some_iff.1 hp).1
    · rw [h.allowed_eq] at hadmitted
      have hadds : ∀ kind, Call.processor? allowed kind (.add owner reg) =
          reg.processor? owner kind := fun kind => if_pos (all_contains_iff.2 hadmitted.rule)
      have hgrows := growsBy_add hadd
      refine ⟨hgrows.allowed_eq.trans h.allowed_eq, ?_, fun kind => ?_, ?_⟩
      · simp [h.frozen_iff]
      · rw [hgrows.processorsFor_eq, h.processorsFor_eq,
          added_append_of_not_mem (h.freeze_not_mem hfrozen), added_singleton, hadds]
      · have hone := sum_processor?_of_isAdmitted hadmitted owner
        simp only [hadds] at hone
        simp only [hgrows.processorsFor_eq, List.length_append, List.sum_map_add, hone]
        rw [← h.size_eq]
        exact length_flatMap_append _ _ _

end Step

/-! ### Any calls -/

section Calls

variable [Machine] {allowed : Option (List String)} {calls more : List Call}

lemma after_append (allowed : Option (List String)) (calls more : List Call) :
    after allowed (calls ++ more) = (after allowed calls).run more := List.foldl_append

/-- **All calls are recorded.** -/
theorem records_after (allowed : Option (List String)) (calls : List Call) :
    Records allowed calls (after allowed calls) := by
  induction calls using List.reverseRecOn with
  | nil =>
    have hsize : (NodeKind.all.map fun _ => 0).sum = 0 := by simp
    exact ⟨rfl, by simp [after, run], fun _ => rfl, hsize.symm⟩
  | append_singleton calls c ih =>
    rw [after_append]
    exact ih.step c

/-- A handler is accepted exactly if the registry is not frozen and the handler is admitted. -/
lemma exists_add_after_iff (owner : String) (reg : Registration) :
    (∃ next, (after allowed calls).add owner reg = .ok next) ↔
      .freeze ∉ calls ∧ reg.IsAdmitted allowed := by
  have h := records_after allowed calls
  have hcases := (after allowed calls).add_cases owner reg
  rw [h.allowed_eq] at hcases
  rw [← h.frozen_iff]
  rcases hcases with ⟨hfrozen, f, hadd, -⟩ | ⟨hfrozen, hnot, f, hadd, -⟩ |
    ⟨hfrozen, hadmitted, kind, handler, -, -, hadd⟩
  · simp [hadd, hfrozen]
  · simpa [hadd, hfrozen] using hnot
  · simpa [hadd, hfrozen] using hadmitted

/-- A handler that is accepted is put behind those for its kind. -/
lemma after_of_add_eq_ok {owner : String} {reg : Registration} {next : Registry}
    (hadd : (after allowed calls).add owner reg = .ok next) :
    next = after allowed (calls ++ [.add owner reg]) ∧ ∃ kind handler,
      reg.kind = .string (NodeKind.name kind) ∧ reg.handler = some handler ∧
      ∀ other, next.processorsFor other = (after allowed calls).processorsFor other ++
        if kind = other then [⟨reg.rule, owner, handler⟩] else [] := by
  refine ⟨?_, ?_⟩
  · rw [after_append, run, List.foldl_cons, step, hadd, List.foldl_nil]
  · rcases (after allowed calls).add_cases owner reg with ⟨-, g, hg, -⟩ | ⟨-, -, g, hg, -⟩ |
      ⟨-, -, kind, handler, hkind, hhandler, hg⟩ <;> rw [hadd] at hg <;> cases hg
    exact ⟨kind, handler, hkind, hhandler, fun other => getD_lookup_append other kind _ _⟩

/-- A handler that is refused changes nothing, and it is refused as one for a frozen registry if the
registry is frozen, whatever else is wrong.  Otherwise it is refused with a registration fault,
unless what it is for cannot be shown. -/
lemma after_of_add_eq_error {owner : String} {reg : Registration} {f : Fault}
    (hadd : (after allowed calls).add owner reg = .error f) :
    after allowed (calls ++ [.add owner reg]) = after allowed calls ∧
      (.freeze ∈ calls → f.faultClass = .registryFrozen) ∧
      (.freeze ∉ calls → (∀ s, reg.kind.quoted = .ok s → f.faultClass = .ruleRegistration) ∧
        ∀ why, reg.kind.quoted = .error why → f = .text why) := by
  have h := records_after allowed calls
  rw [← h.frozen_iff]
  refine ⟨?_, ?_⟩
  · rw [after_append, run, List.foldl_cons, step, hadd, List.foldl_nil]
  · rcases (after allowed calls).add_cases owner reg with ⟨hfrozen, g, hg, hclass⟩ |
      ⟨hfrozen, -, g, hg, hclass⟩ | ⟨-, -, kind, handler, -, -, hg⟩ <;> rw [hadd] at hg <;>
      cases hg
    · exact ⟨fun _ => hclass, fun hopen => absurd hfrozen hopen⟩
    · exact ⟨fun hclosed => by simp [hfrozen] at hclosed, fun _ => hclass⟩

/-- **The size stays as it is exactly if no handler is added.** -/
theorem size_after_append : (after allowed (calls ++ more)).size = (after allowed calls).size ↔
    ∀ kind, added allowed kind (calls ++ more) = added allowed kind calls := by
  have hafter := records_after allowed (calls ++ more)
  have hbefore := records_after allowed calls
  rw [hafter.size_eq, hbefore.size_eq]
  simp only [hafter.processorsFor_eq, hbefore.processorsFor_eq]
  by_cases hmem : .freeze ∈ calls
  · simp [added_append_of_mem hmem]
  · simp only [added_append_of_not_mem hmem, List.length_append, List.sum_map_add,
      Nat.add_eq_left, List.sum_eq_zero_iff_forall_eq_nat, List.append_right_eq_self]
    simp [NodeKind.mem_all]

end Calls

end Registry

/-! ### The calls of a script -/

namespace Script

variable [Machine]

/-- The calls by which a script of a rule tries to add handlers in a session, in their order. -/
def calls (owner : String) (links : Links) : Script → Session → List Registry.Call
  | .done, _ => []
  | .fail _, _ => []
  | .report r next, s => (next (s.reporter.report r).1).calls owner links (s.afterReport r)
  | .register kind rule callable handler next, s =>
    .add owner ⟨kind, rule, if callable then some handler else none⟩ ::
      match s.registry.add owner ⟨kind, rule, if callable then some handler else none⟩ with
      | .error f => (next (.error f)).calls owner links s
      | .ok registry => (next (.ok ())).calls owner links (s.withRegistry registry)
  | .extendsClass type name library next, s =>
    (next (s.supertypes.extendsClass type name library).1).calls owner links
      (s.afterQuestion type name library)
  | .locate node next, s => (next (links.site node)).calls owner links s

/-- A script leaves the registry as its calls do. -/
lemma registry_run (owner : String) (links : Links) (script : Script) (s : Session) :
    (script.run owner links s).2.registry = s.registry.run (script.calls owner links s) := by
  induction script generalizing s with
  | done => rfl
  | fail f => rfl
  | report r next ih => exact ih _ _
  | register kind rule callable handler next _ ih =>
    simp only [run, calls]
    rcases hadd : s.registry.add owner ⟨kind, rule, if callable then some handler else none⟩
      with f | registry
    · simp only [ih, Registry.run, List.foldl_cons, Registry.step, hadd]
    · simp only [Session.withRegistry, ih, Registry.run, List.foldl_cons, Registry.step, hadd]
  | extendsClass type name library next ih => exact ih _ _
  | locate node next ih => exact ih _ _

/-- A script does not freeze the registry. -/
lemma freeze_not_mem_calls (owner : String) (links : Links) (script : Script) (s : Session) :
    .freeze ∉ script.calls owner links s := by
  induction script generalizing s with
  | done => exact List.not_mem_nil
  | fail f => exact List.not_mem_nil
  | report r next ih => exact ih _ _
  | register kind rule callable handler next _ ih =>
    rw [calls, List.mem_cons]
    rintro (h | h)
    · cases h
    · split at h <;> exact ih _ _ h
  | extendsClass type name library next ih => exact ih _ _
  | locate node next ih => exact ih _ _

end Script

/-! ### The rules of a list -/

namespace RuleSet

variable [Machine] {allowed : Option (List String)} {calls : List Registry.Call}
  {context : Context} {links : Links} {b : Building} {rule : Rule} {rules : List Rule}

/-- The calls by which a rule tries to add handlers when it is its turn to register. -/
def callsOf (context : Context) (links : Links) (rule : Rule) (b : Building) :
    List Registry.Call :=
  match rule.card, rule.setup with
  | some card, some setup => (setup context).calls card.name links (declared rule b.session)
  | _, _ => []

/-- The rules of a list with their calls, each in the session that those before it leave. -/
def turns (context : Context) (links : Links) :
    List Rule → Building → List (Rule × List Registry.Call)
  | [], _ => []
  | rule :: rest, b =>
    (rule, callsOf context links rule b) ::
      turns context links rest (enroll context links rule b).2

/-- Whether calls add no handler to a registry for some rules. -/
def isIdle (allowed : Option (List String)) (calls : List Registry.Call) : Bool :=
  NodeKind.all.all fun kind => (Registry.added allowed kind calls).isEmpty

lemma map_fst_turns (rules : List Rule) (b : Building) :
    (turns context links rules b).map Prod.fst = rules := by
  induction rules generalizing b with
  | nil => rfl
  | cons rule rest ih => rw [turns, List.map_cons, ih]

lemma freeze_not_mem_callsOf (rule : Rule) (b : Building) :
    .freeze ∉ callsOf context links rule b := by
  unfold callsOf
  split
  · exact Script.freeze_not_mem_calls _ _ _ _
  · exact List.not_mem_nil

/-- Calls are idle exactly if they leave the size of the registry as it was. -/
lemma isIdle_iff {more : List Registry.Call} (h : .freeze ∉ calls) : isIdle allowed more = true ↔
    (Registry.after allowed (calls ++ more)).size = (Registry.after allowed calls).size := by
  rw [Registry.size_after_append]
  simp [isIdle, Registry.added_append_of_not_mem h, NodeKind.mem_all]

lemma enroll_eq_run (h : (enroll context links rule b).1 = .ok ()) :
    (enroll context links rule b).2.session.registry =
        b.session.registry.run (callsOf context links rule b) ∧
      (enroll context links rule b).2.warnings = b.warnings ++
        if (b.session.registry.run (callsOf context links rule b)).size = b.session.registry.size
        then [idleWarning (rule.name?.getD "")] else [] := by
  obtain ⟨card, setup, hcard, hsetup, -, hrun, hwarnings⟩ := enroll_of_ok h
  have hregistry : (enroll context links rule b).2.session.registry =
      b.session.registry.run (callsOf context links rule b) := by
    have hcalls := Script.registry_run card.name links (setup context) (declared rule b.session)
    rw [hrun] at hcalls
    simp only [callsOf, hcard, hsetup]
    exact hcalls
  refine ⟨hregistry, ?_⟩
  rw [hwarnings, ← hregistry, rule.name?_of_card hcard]
  simp

/-- Rules that register one after the other are warned about if their calls are idle. -/
lemma enrollAll_eq_run (hb : b.session.registry = Registry.after allowed calls)
    (hopen : .freeze ∉ calls) (h : (enrollAll context links rules b).1 = .ok ()) :
    (enrollAll context links rules b).2.session.registry =
        Registry.after allowed (calls ++ (turns context links rules b).flatMap Prod.snd) ∧
      (enrollAll context links rules b).2.warnings = b.warnings ++
        ((turns context links rules b).filter fun turn => isIdle allowed turn.2).map
          fun turn => idleWarning (turn.1.name?.getD "") := by
  induction rules generalizing b calls with
  | nil => simpa [enrollAll, turns] using hb
  | cons rule rest ih =>
    obtain ⟨hrule, hrest⟩ := (enrollAll_cons_fst_eq_ok_iff rule rest).1 h
    obtain ⟨hregistry, hwarnings⟩ := enroll_eq_run hrule
    rw [hb, ← Registry.after_append] at hregistry hwarnings
    have hopen' : .freeze ∉ calls ++ callsOf context links rule b := by
      simp [hopen, freeze_not_mem_callsOf]
    obtain ⟨hregistry', hwarnings'⟩ := ih hregistry hopen' hrest
    rw [enrollAll_cons_of_ok hrule, hregistry', hwarnings', hwarnings, turns, List.filter_cons,
      List.flatMap_cons]
    simp only [← isIdle_iff hopen]
    refine ⟨by simp, ?_⟩
    split_ifs <;> simp

/-- What is added by the calls of all rules is added by those of each rule. -/
lemma added_flatMap_turns (allowed : Option (List String)) (kind : NodeKind)
    (rules : List Rule) (b : Building) :
    Registry.added allowed kind ((turns context links rules b).flatMap Prod.snd ++ [.freeze]) =
      (turns context links rules b).flatMap fun turn => Registry.added allowed kind turn.2 := by
  induction rules generalizing b with
  | nil => rfl
  | cons rule rest ih =>
    rw [turns, List.flatMap_cons, List.append_assoc,
      Registry.added_append_of_not_mem (freeze_not_mem_callsOf rule b), ih, List.flatMap_cons]

/-- **The law of the registry.**  After any calls, a registry is frozen exactly if one of them froze
it.  It accepts a handler exactly if it is not frozen and the handler is admitted, and puts it
behind those for its kind; a handler that is refused leaves it as it is.  It is refused as one for a
frozen registry if the registry is frozen, whatever else is wrong, and otherwise with a registration
fault, if what it is for can be shown; if not, the refusal is that it cannot be shown.
For each node kind the registry holds the handlers that were admitted before it was frozen, in the
order of the calls, and its size is their number over all kinds; so further calls leave its size as
it is exactly if they add no handler.

A registry that is built for rules is the one after the calls of all of them, each made in the
session that the rules before it leave, and frozen at the end.  So it holds for each node kind the
handlers of the first rule, then those of the second, and so on, and the rules that are warned about
are those none of whose handlers was admitted. -/
theorem registry_law :
    (∀ (allowed : Option (List String)) (calls : List Registry.Call),
      ((Registry.after allowed calls).frozen = true ↔ .freeze ∈ calls) ∧
      (∀ owner reg,
        ((∃ next, (Registry.after allowed calls).add owner reg = .ok next) ↔
          .freeze ∉ calls ∧ reg.IsAdmitted allowed) ∧
        (∀ next, (Registry.after allowed calls).add owner reg = .ok next →
          next = Registry.after allowed (calls ++ [.add owner reg]) ∧ ∃ kind handler,
            reg.kind = .string (NodeKind.name kind) ∧ reg.handler = some handler ∧
            ∀ other, next.processorsFor other =
              (Registry.after allowed calls).processorsFor other ++
                if kind = other then [⟨reg.rule, owner, handler⟩] else []) ∧
        ∀ f, (Registry.after allowed calls).add owner reg = .error f →
          Registry.after allowed (calls ++ [.add owner reg]) = Registry.after allowed calls ∧
          (.freeze ∈ calls → f.faultClass = .registryFrozen) ∧
          (.freeze ∉ calls → (∀ s, reg.kind.quoted = .ok s → f.faultClass = .ruleRegistration) ∧
            ∀ why, reg.kind.quoted = .error why → f = .text why)) ∧
      (∀ kind, (Registry.after allowed calls).processorsFor kind =
        Registry.added allowed kind calls) ∧
      (Registry.after allowed calls).size = (NodeKind.all.map fun kind =>
        ((Registry.after allowed calls).processorsFor kind).length).sum ∧
      ∀ more, (Registry.after allowed (calls ++ more)).size = (Registry.after allowed calls).size ↔
        ∀ kind, (Registry.after allowed (calls ++ more)).processorsFor kind =
          (Registry.after allowed calls).processorsFor kind) ∧
    ∀ rules context links reporter m, (buildRegistry rules context links reporter m).1 = .ok () →
      let built := (buildRegistry rules context links reporter m).2
      let names := some (rules.filterMap Rule.name?)
      let took := turns context links rules (opening rules reporter m)
      took.map Prod.fst = rules ∧
      built.session.registry = Registry.after names (took.flatMap Prod.snd ++ [.freeze]) ∧
      built.session.registry.frozen = true ∧
      (∀ kind, built.session.registry.processorsFor kind =
        took.flatMap fun turn => Registry.added names kind turn.2) ∧
      built.warnings = (took.filter fun turn => isIdle names turn.2).map fun turn =>
        idleWarning (turn.1.name?.getD "") := by
  constructor
  · intro allowed calls
    have h := Registry.records_after allowed calls
    refine ⟨h.frozen_iff, fun owner reg => ⟨Registry.exists_add_after_iff owner reg,
      fun next => Registry.after_of_add_eq_ok, fun f => Registry.after_of_add_eq_error⟩,
      h.processorsFor_eq, h.size_eq, fun more => ?_⟩
    rw [Registry.size_after_append]
    have hmore := Registry.records_after allowed (calls ++ more)
    simp only [h.processorsFor_eq, hmore.processorsFor_eq]
  · intro rules context links reporter m hbuild built names took
    have hopening : (opening rules reporter m).session.registry = Registry.after names [] := rfl
    obtain ⟨hregistry, hwarnings⟩ :=
      enrollAll_eq_run hopening List.not_mem_nil (buildRegistry_of_ok.1.1 hbuild)
    have hbuilt : built.session.registry =
        Registry.after names (took.flatMap Prod.snd ++ [.freeze]) := by
      rw [Registry.after_append]
      show (buildRegistry rules context links reporter m).2.session.registry = _
      rw [buildRegistry_of_ok.2 hbuild, Session.registry_freeze, hregistry]
      rfl
    have hrecords := Registry.records_after names (took.flatMap Prod.snd ++ [.freeze])
    rw [← hbuilt] at hrecords
    refine ⟨map_fst_turns rules _, hbuilt, hrecords.frozen_iff.2 (by simp), fun kind => ?_, ?_⟩
    · rw [hrecords.processorsFor_eq]
      exact added_flatMap_turns names kind rules _
    · show (buildRegistry rules context links reporter m).2.warnings = _
      rw [buildRegistry_of_ok.2 hbuild]
      exact hwarnings

end RuleSet

/-! ### Handlers that are refused -/

namespace RuleSet

/-- A rule that tries to add a handler under a name outside the list of rules, and takes the
refusal. -/
def idleRule : Rule where
  object := .string "idle"
  card := some ⟨"idle", "idle", .errors, [], "idle"⟩
  setup := some fun _ => .register (.string "block") "other" true (fun _ _ => .done) fun _ => .done

/-- A rule that adds a handler under its own name and under that of the rule without handlers. -/
def busyRule : Rule where
  object := .string "busy"
  card := some ⟨"busy", "busy", .errors, [], "busy"⟩
  setup := some fun _ => .addAll [
    ⟨.string "block", "busy", some fun _ _ => .done⟩,
    ⟨.string "block", "idle", some fun _ _ => .done⟩]

/-- A file with an empty block. -/
def emptyFile : Tree := ⟨.mk 0 ⟨0, 2⟩ .unresolved (.block []), "block.dart", none, #[0]⟩

/-- The reporter of this file. -/
def emptyReporter : Reporter where
  tree := emptyFile
  strict := false
  severities := []
  limit := none

/-- What is built for these rules. -/
def idleBuilding [Machine] : Except Fault Unit × Building :=
  buildRegistry [idleRule, busyRule] ⟨emptyFile, []⟩ ∅ emptyReporter ⟨Hierarchy.standard, []⟩

attribute [local instance] Machine.small

theorem registry_law_idle :
    (∃ next, (Registry.after none []).add "busy" ⟨.string "block", "busy", some fun _ _ => .done⟩ =
        .ok next ∧ next = Registry.after none
          [.add "busy" ⟨.string "block", "busy", some fun _ _ => .done⟩]) ∧
    (Registry.after none [.freeze]).add "busy" ⟨.null, "busy", none⟩ = .error (.frozen "busy") ∧
    Registry.after none [.freeze, .add "busy" ⟨.null, "busy", none⟩] =
      Registry.after none [.freeze] ∧
    idleBuilding.1 = .ok () ∧
    idleBuilding.2.session.registry.processorsFor .block =
      [⟨"busy", "busy", fun _ _ => .done⟩, ⟨"idle", "busy", fun _ _ => .done⟩] ∧
    idleBuilding.2.warnings = ["Rule 'idle' registered no node processors"] := by
  obtain ⟨-, hopen, -⟩ := registry_law.1 none []
  obtain ⟨-, hclosed, -⟩ := registry_law.1 none [.freeze]
  have hadmitted : Registration.IsAdmitted none
      ⟨.string "block", "busy", some fun _ _ => .done⟩ :=
    ⟨⟨.block, rfl⟩, ⟨_, rfl⟩, nofun⟩
  obtain ⟨haccepts, hadds, -⟩ := hopen "busy" ⟨.string "block", "busy", some fun _ _ => .done⟩
  obtain ⟨next, hnext⟩ := haccepts.2 ⟨List.not_mem_nil, hadmitted⟩
  have hrefused : (Registry.after none [.freeze]).add "busy" ⟨.null, "busy", none⟩ =
      .error (.frozen "busy") := rfl
  have hbuilt : idleBuilding.1 = .ok () := by rfl
  obtain ⟨-, -, -, hprocessors, hwarnings⟩ := registry_law.2 _ _ _ _ _ hbuilt
  exact ⟨⟨next, hnext, (hadds next hnext).1⟩, hrefused, ((hclosed _ _).2.2 _ hrefused).1, hbuilt,
    hprocessors .block, hwarnings⟩

/-- A handler for an integer that is too long for a text is not refused with a registration
fault. -/
theorem not_forall_unknown_kind_refused :
    ¬ ∀ (allowed : Option (List String)) (calls : List Registry.Call) (owner : String)
        (reg : Registration) (f : Fault), .freeze ∉ calls →
      (Registry.after allowed calls).add owner reg = .error f →
        f.faultClass = .ruleRegistration := by
  intro hall
  have hrefused : (Registry.after none []).add "odd" ⟨.int Value.leastLong, "odd", none⟩ =
      .error (.text .longInteger) := by
    have hshown : (Value.int Value.leastLong).quoted = .error .longInteger :=
      (Value.quoted_int _).trans Value.decimal_leastLong
    have hopen : (Registry.after none []).frozen = false := rfl
    rw [Registry.add, if_neg (by rw [hopen]; exact Bool.false_ne_true)]
    simp only [Registry.kindOf?, hshown, Fault.showing_error]
  cases hall _ _ _ _ _ List.not_mem_nil hrefused

end RuleSet

end TreeLint
