/-
The calls of a traversal, one after the other.

A traversal goes from node to node and at each node from handler to handler.  Once
the registry is frozen this is one list of calls, the agenda: for each node the
handlers for its kind, in the order of their registration.  `performAll` makes the
calls of a list, and `run_eq_performAll` says that a traversal makes those of its
agenda.

`history` tells what happens in each call when it is made in the session that the
calls before it leave.  A call ends the traversal if it fails with a programming fault
in strict mode, or with a fault that cannot be told in any mode (`Record.ending?`).  A
traversal is told by its history, up to the first record that ends it:
`performAll_eq_of_none` and `performAll_eq_of_some`.
-/
import Mathlib.Data.List.Basic
import TreeLint.Proofs.Run.Simulation
namespace TreeLint

/-- A node and a handler to call on it. -/
structure Call where
  /-- The node. -/
  node : Node
  /-- The handler, with the names under which it was added. -/
  processor : Processor

namespace Call

/-- What the handler does on the node. -/
def script (context : Context) (links : Links) (c : Call) : Script :=
  c.processor.handler context (links.site c.node)

/-- The call as a traversal notes it. -/
def invocation (c : Call) : Invocation := ⟨c.processor.rule, c.processor.owner, c.node⟩

/-- The name of the rule that added the handler. -/
def owner (c : Call) : String := c.processor.owner

end Call

/-- What happened in a call. -/
structure Record where
  /-- The call. -/
  invocation : Invocation
  /-- What the handler did, step by step. -/
  events : List Event
  /-- The fault that the handler failed with, if it failed. -/
  fault : Option Fault

section

variable [Machine]

/-- Why a fault cannot be told: there is no text to warn of it, or none to record it with. -/
def Fault.untold? (f : Fault) : Option TextFault :=
  match f.shown with
  | .error why => some why
  | .ok _ =>
    match f.message with
    | .error why => some why
    | .ok _ => none

/-- The failure to be noted for a call, if it failed with a fault that can be told. -/
def Record.failure? (tree : Tree) (r : Record) : Option Failure :=
  match r.fault with
  | none => none
  | some f =>
    match f.untold?, f.recorded with
    | none, .ok error => some
        ⟨r.invocation.rule, r.invocation.node.kind.name, tree.path, r.invocation.node.span, error⟩
    | _, _ => none

/-- The fault with which a call ends the traversal, if it does. -/
def Record.ending? (strict : Bool) (r : Record) : Option Fault :=
  match r.fault with
  | none => none
  | some f => if strict && f.isProgramming then some f else f.untold?.map .text

/-- A fault can be told exactly if it can be shown and has a message. -/
lemma Fault.untold?_eq_none_iff {f : Fault} :
    f.untold? = none ↔ (∃ s, f.shown = .ok s) ∧ ∃ s, f.message = .ok s := by
  unfold untold?
  cases f.shown <;> cases f.message <;> simp

/-- A fault that can be told has a record. -/
lemma Fault.exists_recorded {f : Fault} (h : f.untold? = none) : ∃ s, f.recorded = .ok s := by
  obtain ⟨-, s, hs⟩ := Fault.untold?_eq_none_iff.1 h
  exact ⟨_, by rw [recorded, hs]; rfl⟩

/-- Outside strict mode a call ends the traversal exactly if it fails with a fault that cannot be
told. -/
lemma Record.ending?_lenient_eq_some_iff {r : Record} {g : Fault} :
    r.ending? false = some g ↔
      ∃ f why, r.fault = some f ∧ f.untold? = some why ∧ g = .text why := by
  unfold ending?
  cases r.fault with
  | none => simp
  | some f => simp [Option.map_eq_some_iff, eq_comm (a := g)]

lemma Record.ending?_lenient_eq_none_iff {r : Record} :
    r.ending? false = none ↔ ∀ f, r.fault = some f → f.untold? = none := by
  unfold ending?
  cases r.fault with
  | none => simp
  | some f => simp

end

namespace Traversal

/-- The calls to be made on some nodes: on each node the handlers for its kind, in the order of
their registration. -/
def agenda (registry : Registry) (nodes : List Node) : List Call :=
  nodes.flatMap fun n => (registry.processorsFor n.kind).map (Call.mk n)

lemma agenda_cons (registry : Registry) (n : Node) (nodes : List Node) :
    agenda registry (n :: nodes) =
      (registry.processorsFor n.kind).map (Call.mk n) ++ agenda registry nodes := rfl

/-- A call on the agenda is one of a registered handler on one of the nodes. -/
lemma mem_agenda_iff {registry : Registry} {nodes : List Node} {c : Call} :
    c ∈ agenda registry nodes ↔
      c.node ∈ nodes ∧ c.processor ∈ registry.processorsFor c.node.kind := by
  rw [agenda, List.mem_flatMap]
  constructor
  · rintro ⟨n, hn, hc⟩
    obtain ⟨p, hp, rfl⟩ := List.mem_map.1 hc
    exact ⟨hn, hp⟩
  · rintro ⟨hn, hp⟩
    exact ⟨c.node, hn, List.mem_map.2 ⟨_, hp, rfl⟩⟩

/-- In a file with line starts every offset has a location. -/
lemma exists_location {tree : Tree} (h : tree.lineStarts.size ≠ 0) (offset : Int) :
    ∃ l, tree.location offset = .ok l := by
  obtain ⟨l, hl⟩ := Option.isSome_iff_exists.1 (Location.ofOffset?_isSome h offset)
  exact ⟨l, by simp only [Tree.location, hl]⟩

variable [Machine]

/-- The session after some calls. -/
def sessionAfter (context : Context) (links : Links) : List Call → Session → Session
  | [], s => s
  | c :: rest, s =>
    sessionAfter context links rest ((c.script context links).run c.owner links s).2

/-- What happens in a call. -/
def recordOf (context : Context) (links : Links) (c : Call) (s : Session) : Record where
  invocation := c.invocation
  events := (c.script context links).events c.owner links s
  fault := ((c.script context links).run c.owner links s).1

/-- What happens in some calls, each made in the session that those before it leave. -/
def history (context : Context) (links : Links) : List Call → Session → List Record
  | [], _ => []
  | c :: rest, s =>
    recordOf context links c s ::
      history context links rest ((c.script context links).run c.owner links s).2

/-- Makes calls one after the other, until the traversal is ended. -/
def performAll (strict : Bool) (context : Context) (links : Links) :
    List Call → Traversal → Option Fault × Traversal
  | [], t => (none, t)
  | c :: rest, t =>
    match invoke strict context links c.node c.processor t with
    | (some f, t) => (some f, t)
    | (none, t) => performAll strict context links rest t

variable {strict : Bool} {context : Context} {links : Links}

lemma fault_recordOf {c : Call} {s after : Session} {ended : Option Fault}
    (h : (c.script context links).run c.owner links s = (ended, after)) :
    (recordOf context links c s).fault = ended :=
  congrArg Prod.fst h

lemma invocation_history (context : Context) (links : Links) (calls : List Call) (s : Session) :
    (history context links calls s).map Record.invocation = calls.map Call.invocation := by
  induction calls generalizing s with
  | nil => rfl
  | cons c rest ih =>
    rw [history, List.map_cons, List.map_cons, ih]
    rfl

lemma history_append (first second : List Call) (s : Session) :
    history context links (first ++ second) s = history context links first s ++
      history context links second (sessionAfter context links first s) := by
  induction first generalizing s with
  | nil => rfl
  | cons c rest ih => simp only [List.cons_append, history, sessionAfter, ih]

lemma sessionAfter_append (first second : List Call) (s : Session) :
    sessionAfter context links (first ++ second) s =
      sessionAfter context links second (sessionAfter context links first s) := by
  induction first generalizing s with
  | nil => rfl
  | cons c rest ih => simp only [List.cons_append, sessionAfter, ih]

/-- Before a record of a history come the records of the calls before. -/
lemma exists_of_history_eq_append {calls : List Call} {s : Session} {before after : List Record}
    {r : Record} (h : history context links calls s = before ++ r :: after) :
    ∃ first c rest, calls = first ++ c :: rest ∧ history context links first s = before ∧
      r = recordOf context links c (sessionAfter context links first s) := by
  induction calls generalizing s before with
  | nil => simp [history] at h
  | cons c rest ih =>
    rw [history] at h
    cases before with
    | nil => exact ⟨[], c, rest, rfl, rfl, (List.cons.inj h).1.symm⟩
    | cons b before =>
      obtain ⟨rfl, htail⟩ := List.cons.inj h
      obtain ⟨first, c', rest', rfl, rfl, hr⟩ := ih htail
      exact ⟨c :: first, c', rest', rfl, rfl, hr⟩

/-! ### A traversal makes the calls of its agenda -/

/-- How a call ends has an effect on the failures and the warnings only, and it is the same in every
traversal. -/
lemma exists_noteFault_eq (strict : Bool) (tree : Tree) (p : Processor) (n : Node)
    (ended : Option Fault) :
    ∃ ending failures warnings, (∀ f ∈ failures, f.rule = p.rule) ∧ ∀ t : Traversal,
      noteFault strict tree p n t ended = (ending, { t with
        failures := t.failures ++ failures
        warnings := t.warnings ++ warnings }) := by
  rcases ended with _ | f
  · exact ⟨none, [], [], by simp, fun t => by simp [noteFault]⟩
  by_cases hstrict : (strict && f.isProgramming) = true
  · exact ⟨some f, [], [], by simp, fun t => by simp [noteFault, hstrict]⟩
  rcases hlocation : tree.location n.span.start with g | l
  · exact ⟨some g, [], [], by simp, fun t => by simp [noteFault, hstrict, hlocation]⟩
  rcases hwarning : failureWarning tree p n l f with why | warning
  · exact ⟨some (.text why), [], [], by simp,
      fun t => by simp [noteFault, hstrict, hlocation, hwarning]⟩
  rcases hfailure : failureOf tree p n f with why | failure
  · exact ⟨some (.text why), [], [warning], by simp,
      fun t => by simp [noteFault, hstrict, hlocation, hwarning, hfailure]⟩
  · refine ⟨none, [failure], [warning], ?_,
      fun t => by simp [noteFault, hstrict, hlocation, hwarning, hfailure]⟩
    rw [failureOf] at hfailure
    obtain ⟨error, -, heq⟩ := Except.bind_eq_ok_iff.1 hfailure
    cases heq
    simp

/-- How a call ends has no effect on the session. -/
@[simp] lemma session_noteFault (strict : Bool) (tree : Tree) (p : Processor) (n : Node)
    (t : Traversal) (ended : Option Fault) :
    (noteFault strict tree p n t ended).2.session = t.session := by
  obtain ⟨ending, failures, warnings, -, h⟩ := exists_noteFault_eq strict tree p n ended
  rw [h]

lemma session_invoke (strict : Bool) (context : Context) (links : Links) (c : Call)
    (t : Traversal) :
    (invoke strict context links c.node c.processor t).2.session =
      ((c.script context links).run c.owner links t.session).2 := by
  simp [invoke, Call.script, Call.owner]

lemma registry_invoke {c : Call} {t : Traversal} (h : t.session.registry.frozen = true) :
    (invoke strict context links c.node c.processor t).2.session.registry =
      t.session.registry := by
  rw [session_invoke]
  exact (c.script context links).registry_run_of_frozen c.owner links h

/-- Calls on one node are made like any others. -/
lemma invokeAll_eq_performAll (n : Node) (ps : List Processor) (t : Traversal) :
    invokeAll strict context links n ps t =
      performAll strict context links (ps.map (Call.mk n)) t := by
  induction ps generalizing t with
  | nil => rfl
  | cons p rest ih =>
    simp only [invokeAll, List.map_cons, performAll]
    rcases invoke strict context links n p t with ⟨_ | f, t'⟩
    · exact ih t'
    · rfl

/-- Two lists of calls are made one after the other; the second is left out if the first ends the
traversal. -/
lemma performAll_append (first second : List Call) (t : Traversal) :
    performAll strict context links (first ++ second) t =
      match performAll strict context links first t with
      | (some f, t) => (some f, t)
      | (none, t) => performAll strict context links second t := by
  induction first generalizing t with
  | nil => rfl
  | cons c rest ih =>
    simp only [List.cons_append, performAll]
    rcases invoke strict context links c.node c.processor t with ⟨_ | f, t'⟩
    · exact ih t'
    · rfl

lemma registry_performAll (calls : List Call) {t : Traversal}
    (h : t.session.registry.frozen = true) :
    (performAll strict context links calls t).2.session.registry = t.session.registry := by
  induction calls generalizing t with
  | nil => rfl
  | cons c rest ih =>
    have hstep : (invoke strict context links c.node c.processor t).2.session.registry =
        t.session.registry := registry_invoke h
    simp only [performAll]
    rcases heq : invoke strict context links c.node c.processor t with ⟨_ | f, t'⟩ <;>
      rw [heq] at hstep
    · rw [ih (by rw [hstep]; exact h), hstep]
    · exact hstep

/-- With a frozen registry, visiting some nodes is making the calls of their agenda. -/
theorem visitAll_eq_performAll (nodes : List Node) {t : Traversal}
    (h : t.session.registry.frozen = true) :
    visitAll strict context links nodes t =
      performAll strict context links (agenda t.session.registry nodes) t := by
  induction nodes generalizing t with
  | nil => rfl
  | cons n rest ih =>
    have hregistry : (performAll strict context links
        ((t.session.registry.processorsFor n.kind).map (Call.mk n)) t).2.session.registry =
          t.session.registry := registry_performAll _ h
    rw [visitAll, invokeAll_eq_performAll, agenda_cons, performAll_append]
    rcases heq : performAll strict context links
      ((t.session.registry.processorsFor n.kind).map (Call.mk n)) t with ⟨_ | f, t'⟩
    · have hsame : t'.session.registry = t.session.registry := by
        rw [heq] at hregistry
        exact hregistry
      -- so the agenda of the nodes that are left is still the one of the beginning
      have hfrozen : t'.session.registry.frozen = true := by rw [hsame]; exact h
      simp only [ih hfrozen, hsame]
    · rfl

/-- The calls that a traversal makes. -/
theorem run_eq_performAll (session : Session) :
    run strict context links session =
      performAll strict context links (agenda session.registry context.tree.root.preorder)
        { session := session.freeze } := by
  rw [run, Tree.walk_eq_preorder, visitAll_eq_performAll _ rfl]
  rfl

/-! ### A traversal is told by its history -/

/-- A warning can be given exactly if the fault can be shown. -/
lemma failureWarning_eq (tree : Tree) (p : Processor) (n : Node) (l : Location) (f : Fault) :
    (∃ warning, failureWarning tree p n l f = .ok warning ∧ ∃ s, f.shown = .ok s) ∨
    ∃ why, failureWarning tree p n l f = .error why ∧ f.shown = .error why := by
  unfold failureWarning
  rcases f.shown with why | s
  · exact .inr ⟨why, rfl, rfl⟩
  · exact .inl ⟨_, rfl, s, rfl⟩

/-- A call that does not end the traversal is noted. -/
lemma invoke_of_ending?_eq_none (h : context.tree.lineStarts.size ≠ 0) {c : Call} {t : Traversal}
    (hending : (recordOf context links c t.session).ending? strict = none) :
    ∃ warnings, invoke strict context links c.node c.processor t = (none, {
      session := ((c.script context links).run c.owner links t.session).2
      failures := t.failures ++
        ((recordOf context links c t.session).failure? context.tree).toList
      calls := countCall c.processor.rule t.calls
      trace := t.trace ++ [c.invocation]
      warnings := warnings }) := by
  unfold Record.ending? at hending
  simp only [invoke, noteFault, Record.failure?, recordOf, Call.script, Call.owner,
    Call.invocation] at hending ⊢
  rcases hrun : (c.processor.handler context (links.site c.node)).run c.processor.owner links
    t.session with ⟨_ | f, s⟩
  · exact ⟨t.warnings, by simp⟩
  · obtain ⟨l, hl⟩ := exists_location h c.node.span.start
    simp only [hrun] at hending
    split_ifs at hending with hstrict
    rw [Option.map_eq_none_iff] at hending
    obtain ⟨⟨shown, hshown⟩, message, hmessage⟩ := Fault.untold?_eq_none_iff.1 hending
    obtain ⟨error, herror⟩ := Fault.exists_recorded hending
    rcases failureWarning_eq context.tree c.processor c.node l f with
      ⟨warning, hwarning, -⟩ | ⟨why, -, hwhy⟩
    · refine ⟨t.warnings ++ [warning], ?_⟩
      have hfailure : failureOf context.tree c.processor c.node f = .ok
          ⟨c.processor.rule, c.node.kind.name, context.tree.path, c.node.span, error⟩ := by
        rw [failureOf, herror]
        rfl
      simp only [if_neg hstrict, hl, hwarning, hfailure, hending, herror, Option.toList_some]
    · rw [hwhy] at hshown
      cases hshown

/-- A call that ends the traversal does so with its fault, and is no failure. -/
lemma invoke_of_ending?_eq_some (h : context.tree.lineStarts.size ≠ 0) {c : Call} {t : Traversal}
    {g : Fault} (hending : (recordOf context links c t.session).ending? strict = some g) :
    ∃ warnings, invoke strict context links c.node c.processor t = (some g, {
      session := ((c.script context links).run c.owner links t.session).2
      failures := t.failures
      calls := countCall c.processor.rule t.calls
      trace := t.trace ++ [c.invocation]
      warnings := warnings }) := by
  unfold Record.ending? at hending
  simp only [invoke, noteFault, recordOf, Call.script, Call.owner, Call.invocation] at hending ⊢
  rcases hrun : (c.processor.handler context (links.site c.node)).run c.processor.owner links
    t.session with ⟨_ | f, s⟩ <;> simp only [hrun] at hending
  · cases hending
  · obtain ⟨l, hl⟩ := exists_location h c.node.span.start
    split_ifs at hending with hstrict
    · cases hending
      exact ⟨t.warnings, by simp only [if_pos hstrict]⟩
    · obtain ⟨why, huntold, rfl⟩ := Option.map_eq_some_iff.1 hending
      simp only [if_neg hstrict, hl]
      unfold Fault.untold? at huntold
      -- either there is no warning, or the warning is given and there is no record
      rcases failureWarning_eq context.tree c.processor c.node l f with
        ⟨warning, hwarning, s', hs'⟩ | ⟨why', hwarning, hwhy⟩
      · simp only [hs'] at huntold
        rcases hmessage : f.message with why' | message <;> simp only [hmessage] at huntold
        · cases huntold
          have hfailure : failureOf context.tree c.processor c.node f = .error why := by
            rw [failureOf, Fault.recorded, hmessage]
            rfl
          exact ⟨t.warnings ++ [warning], by simp only [hwarning, hfailure]⟩
        · cases huntold
      · simp only [hwhy, Option.some.injEq] at huntold
        subst huntold
        exact ⟨t.warnings, by simp only [hwarning]⟩

/-- Calls none of which ends the traversal are all made and noted. -/
theorem performAll_eq_of_none (h : context.tree.lineStarts.size ≠ 0) (calls : List Call)
    (t : Traversal)
    (hendings : ∀ r ∈ history context links calls t.session, r.ending? strict = none) :
    ∃ warnings, performAll strict context links calls t = (none, {
      session := sessionAfter context links calls t.session
      failures := t.failures ++
        (history context links calls t.session).filterMap (Record.failure? context.tree)
      calls := calls.foldl (fun counts c => countCall c.processor.rule counts) t.calls
      trace := t.trace ++ calls.map Call.invocation
      warnings := warnings }) := by
  induction calls generalizing t with
  | nil => exact ⟨t.warnings, by simp [performAll, history, sessionAfter]⟩
  | cons c rest ih =>
    rw [history, List.forall_mem_cons] at hendings
    obtain ⟨hfirst, hrest⟩ := hendings
    -- the first call is noted, and the others start in the traversal that it leaves
    obtain ⟨between, hstep⟩ := invoke_of_ending?_eq_none h hfirst
    obtain ⟨warnings, hgo⟩ := ih _ (by rw [← session_invoke strict] at hrest; exact hrest)
    refine ⟨warnings, ?_⟩
    have hcons : performAll strict context links (c :: rest) t =
        performAll strict context links rest
          (invoke strict context links c.node c.processor t).2 := by
      simp only [performAll, hstep]
    rw [hcons, hgo, hstep]
    simp only [history, sessionAfter, List.foldl_cons, List.map_cons, List.append_assoc,
      List.singleton_append]
    rcases hfailure : (recordOf context links c t.session).failure? context.tree with _ | failure
    · rw [List.filterMap_cons_none hfailure]
      rfl
    · rw [List.filterMap_cons_some hfailure]
      rfl

/-- The first call that ends the traversal is the last that is made. -/
theorem performAll_eq_of_some (h : context.tree.lineStarts.size ≠ 0) {first : List Call} {c : Call}
    (rest : List Call) (t : Traversal)
    (hfirst : ∀ r ∈ history context links first t.session, r.ending? strict = none) {g : Fault}
    (hending : (recordOf context links c (sessionAfter context links first t.session)).ending?
      strict = some g) :
    ∃ warnings, performAll strict context links (first ++ c :: rest) t = (some g, {
      session := sessionAfter context links (first ++ [c]) t.session
      failures := t.failures ++
        (history context links first t.session).filterMap (Record.failure? context.tree)
      calls := (first ++ [c]).foldl (fun counts c => countCall c.processor.rule counts) t.calls
      trace := t.trace ++ (first ++ [c]).map Call.invocation
      warnings := warnings }) := by
  obtain ⟨between, hbefore⟩ := performAll_eq_of_none h first t hfirst
  rw [performAll_append, hbefore]
  obtain ⟨warnings, hstep⟩ := invoke_of_ending?_eq_some (t := { t with
    session := sessionAfter context links first t.session
    failures := t.failures ++
      (history context links first t.session).filterMap (Record.failure? context.tree)
    calls := first.foldl (fun counts c => countCall c.processor.rule counts) t.calls
    trace := t.trace ++ first.map Call.invocation
    warnings := between }) h hending
  refine ⟨warnings, ?_⟩
  simp only [performAll, hstep, sessionAfter_append, sessionAfter, List.foldl_append,
    List.foldl_cons, List.foldl_nil, List.map_append, List.map_cons, List.map_nil,
    List.append_assoc]

/-- A traversal ends with the first fault that one of its calls ends it with. -/
theorem performAll_fst (h : context.tree.lineStarts.size ≠ 0) (calls : List Call)
    (t : Traversal) : (performAll strict context links calls t).1 =
      (history context links calls t.session).findSome? (Record.ending? strict) := by
  rcases hfind : (history context links calls t.session).findSome? (Record.ending? strict) with
    _ | g
  · obtain ⟨warnings, hrun⟩ := performAll_eq_of_none h calls t (List.findSome?_eq_none_iff.1 hfind)
    rw [hrun]
  · obtain ⟨before, r, after, heq, hr, hbefore⟩ := List.findSome?_eq_some_iff.1 hfind
    obtain ⟨first, c, rest, rfl, rfl, rfl⟩ := exists_of_history_eq_append heq
    obtain ⟨warnings, hrun⟩ := performAll_eq_of_some h rest t hbefore hr
    rw [hrun]

/-! ### Calls that end alike -/

/-- Two traversals with related sessions that have noted the same. -/
structure Alike (R : Session → Session → Prop) (t₁ t₂ : Traversal) : Prop where
  session : R t₁.session t₂.session
  failures_eq : t₁.failures = t₂.failures
  calls_eq : t₁.calls = t₂.calls
  trace_eq : t₁.trace = t₂.trace
  warnings_eq : t₁.warnings = t₂.warnings

variable {R : Session → Session → Prop} {t₁ t₂ : Traversal}

/-- What is noted of a fault does not depend on the session. -/
lemma noteFault_alike (strict : Bool) (tree : Tree) (p : Processor) (n : Node)
    (ended : Option Fault) (ht : Alike R t₁ t₂) :
    (noteFault strict tree p n t₁ ended).1 = (noteFault strict tree p n t₂ ended).1 ∧
      Alike R (noteFault strict tree p n t₁ ended).2 (noteFault strict tree p n t₂ ended).2 := by
  obtain ⟨ending, failures, warnings, -, h⟩ := exists_noteFault_eq strict tree p n ended
  rw [h, h]
  exact ⟨rfl, ht.session, congrArg (· ++ failures) ht.failures_eq, ht.calls_eq, ht.trace_eq,
    congrArg (· ++ warnings) ht.warnings_eq⟩

/-- Calls whose scripts run alike in related sessions end alike. -/
theorem performAll_alike (strict : Bool) (context : Context) (links : Links) (calls : List Call)
    (hcalls : ∀ c ∈ calls, (c.script context links).RunsAlike R c.owner links)
    (ht : Alike R t₁ t₂) :
    (performAll strict context links calls t₁).1 = (performAll strict context links calls t₂).1 ∧
      Alike R (performAll strict context links calls t₁).2
        (performAll strict context links calls t₂).2 := by
  induction calls generalizing t₁ t₂ with
  | nil => exact ⟨rfl, ht⟩
  | cons c rest ih =>
    obtain ⟨hc, hrest⟩ := List.forall_mem_cons.1 hcalls
    obtain ⟨hend, hsession⟩ := hc _ _ ht.session
    simp only [Call.script, Call.owner] at hend hsession
    have hnoted : Alike R
        { t₁ with
          session := ((c.processor.handler context (links.site c.node)).run c.processor.owner links
            t₁.session).2
          calls := countCall c.processor.rule t₁.calls
          trace := t₁.trace ++ [⟨c.processor.rule, c.processor.owner, c.node⟩] }
        { t₂ with
          session := ((c.processor.handler context (links.site c.node)).run c.processor.owner links
            t₂.session).2
          calls := countCall c.processor.rule t₂.calls
          trace := t₂.trace ++ [⟨c.processor.rule, c.processor.owner, c.node⟩] } :=
      ⟨hsession, ht.failures_eq, by rw [ht.calls_eq], by rw [ht.trace_eq], ht.warnings_eq⟩
    obtain ⟨hended, halike⟩ := noteFault_alike strict context.tree c.processor c.node
      ((c.processor.handler context (links.site c.node)).run c.processor.owner links t₁.session).1
      hnoted
    simp only [performAll, invoke, ← hend]
    rcases h₁ : noteFault strict context.tree c.processor c.node _ _ with ⟨e₁, u₁⟩
    rcases h₂ : noteFault strict context.tree c.processor c.node _ _ with ⟨e₂, u₂⟩
    rw [h₁, h₂] at hended halike
    subst hended
    cases e₁ with
    | none => exact ih hrest halike
    | some f => exact ⟨rfl, halike⟩

/-- Calls keep what their scripts keep, wherever the traversal ends. -/
lemma performAll_preserves {P : Session → Prop} (strict : Bool) (context : Context) (links : Links)
    (calls : List Call) (hcalls : ∀ c ∈ calls, ∀ s, P s →
      P ((c.script context links).run c.owner links s).2)
    {t : Traversal} (h : P t.session) : P (performAll strict context links calls t).2.session := by
  induction calls generalizing t with
  | nil => exact h
  | cons c rest ih =>
    obtain ⟨hc, hrest⟩ := List.forall_mem_cons.1 hcalls
    have hstep : P (invoke strict context links c.node c.processor t).2.session := by
      rw [session_invoke]
      exact hc _ h
    rw [performAll]
    rcases hinvoke : invoke strict context links c.node c.processor t with ⟨_ | f, t'⟩ <;>
      rw [hinvoke] at hstep
    · exact ih hrest hstep
    · exact hstep

end Traversal

end TreeLint
