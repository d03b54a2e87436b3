/-
What a traversal does outside strict mode.

Whatever the handlers do, the traversal calls on every node in preorder the handlers
for its kind in the order of their registration, notes exactly the calls that failed,
refuses every handler that is added on the way, and counts the calls under each name.
It comes to its end unless a call fails with a fault that cannot be told, because what
the fault holds has no text; the first such call is the last: `Traversal.run_lenient`.
-/
import TreeLint.Proofs.Run.History
import TreeLint.Proofs.Value.Telling
namespace TreeLint.Traversal

/-! ### Counting calls -/

/-- The number of calls counted under a name. -/
def callsUnder (rule : String) (counts : List (String × Nat)) : Nat :=
  (counts.lookup rule).getD 0

@[simp] lemma callsUnder_cons_self (rule : String) (n : Nat) (rest : List (String × Nat)) :
    callsUnder rule ((rule, n) :: rest) = n := by
  simp [callsUnder]

lemma callsUnder_cons_of_ne {rule name : String} (h : name ≠ rule) (n : Nat)
    (rest : List (String × Nat)) : callsUnder rule ((name, n) :: rest) = callsUnder rule rest := by
  have hbeq : (rule == name) = false := by simpa using h.symm
  simp only [callsUnder, List.lookup_cons, hbeq]

/-- Counting a call adds one under its name and nothing under the others. -/
lemma callsUnder_countCall (rule called : String) (counts : List (String × Nat)) :
    callsUnder rule (countCall called counts) =
      callsUnder rule counts + if called = rule then 1 else 0 := by
  induction counts with
  | nil =>
    rcases eq_or_ne called rule with rfl | hne
    · simp [countCall, callsUnder]
    · simp [countCall, callsUnder_cons_of_ne hne, hne]
  | cons entry rest ih =>
    obtain ⟨name, n⟩ := entry
    rcases eq_or_ne name called with rfl | hname
    · rcases eq_or_ne name rule with rfl | hne
      · simp [countCall]
      · simp [countCall, callsUnder_cons_of_ne hne, hne]
    · simp only [countCall, hname, if_false]
      rcases eq_or_ne name rule with rfl | hne
      · simp [hname.symm]
      · rw [callsUnder_cons_of_ne hne, callsUnder_cons_of_ne hne, ih]

/-- The calls counted under a name are the calls made under it. -/
lemma callsUnder_foldl (rule : String) (calls : List Call) (counts : List (String × Nat)) :
    callsUnder rule (calls.foldl (fun counts c => countCall c.processor.rule counts) counts) =
      callsUnder rule counts + calls.countP (fun c => c.invocation.rule = rule) := by
  induction calls generalizing counts with
  | nil => rfl
  | cons c rest ih =>
    rw [List.foldl_cons, ih, callsUnder_countCall, List.countP_cons]
    by_cases hrule : c.processor.rule = rule
    · simp only [hrule, if_true, Call.invocation, decide_true]
      omega
    · simp [hrule, Call.invocation]

/-! ### Attempts to add handlers -/

section Law

variable [Machine] {context : Context} {links : Links}

/-- In none of the calls of a traversal a handler can be added. -/
lemma refused_of_mem_history (calls : List Call) {s : Session} (h : s.registry.frozen = true)
    {r : Record} (hr : r ∈ history context links calls s) {kind : Value} {rule : String}
    {answer : Except Fault Unit} (he : Event.registered kind rule answer ∈ r.events) :
    answer = .error (.frozen rule) := by
  induction calls generalizing s with
  | nil => simp [history] at hr
  | cons c rest ih =>
    rw [history, List.mem_cons] at hr
    rcases hr with rfl | hr
    · exact (c.script context links).refused_of_frozen h he
    · have hstep := (c.script context links).registry_run_of_frozen c.owner links h
      exact ih (by rw [hstep]; exact h) hr

/-! ### The traversal -/

/-- What a traversal has noted of the calls that it made. -/
structure Notes (tree : Tree) (made : List Record) (t : Traversal) : Prop where
  /-- The calls are traced in their order. -/
  trace_eq : t.trace = made.map Record.invocation
  /-- The failures are those of the calls that failed with a fault that can be told. -/
  failures_eq : t.failures = made.filterMap (Record.failure? tree)
  /-- Under every name as many calls are counted as were made. -/
  calls_eq : ∀ rule, callsUnder rule t.calls = made.countP (fun r => r.invocation.rule = rule)

/-- A call that ends a traversal is no failure. -/
lemma failure?_of_ending? {tree : Tree} {r : Record} {g : Fault} (h : r.ending? false = some g) :
    r.failure? tree = none := by
  obtain ⟨f, why, hf, huntold, -⟩ := Record.ending?_lenient_eq_some_iff.1 h
  simp only [Record.failure?, hf, huntold]

/-- A traversal notes the calls of its history, up to the first that ends it. -/
lemma exists_notes_performAll (links : Links) (hstarts : context.tree.lineStarts.size ≠ 0)
    (calls : List Call) (s : Session) :
    ∃ made, made <+: history context links calls s ∧
      Notes context.tree made (performAll false context links calls { session := s }).2 ∧
      ((performAll false context links calls { session := s }).1 = none →
        made = history context links calls s) ∧
      ∀ g, (performAll false context links calls { session := s }).1 = some g →
        ∃ before r, made = before ++ [r] ∧ (∀ b ∈ before, b.ending? false = none) ∧
          r.ending? false = some g := by
  have hcount : ∀ (calls : List Call) (s : Session) (rule : String),
      callsUnder rule (calls.foldl (fun counts c => countCall c.processor.rule counts) []) =
        (history context links calls s).countP (fun r => r.invocation.rule = rule) := by
    intro calls s rule
    have hrule : (fun r : Record => decide (r.invocation.rule = rule)) =
        (fun i : Invocation => decide (i.rule = rule)) ∘ Record.invocation := rfl
    rw [callsUnder_foldl, hrule, ← List.countP_map, invocation_history, List.countP_map]
    exact Nat.zero_add _
  rcases hfind : (history context links calls s).findSome? (Record.ending? false) with _ | g
  · obtain ⟨warnings, hrun⟩ := performAll_eq_of_none hstarts calls { session := s }
      (List.findSome?_eq_none_iff.1 hfind)
    rw [hrun]
    refine ⟨_, List.prefix_rfl, ⟨?_, rfl, hcount calls s⟩, fun _ => rfl, fun g hg => nomatch hg⟩
    exact (invocation_history context links calls s).symm
  · obtain ⟨before, r, after, heq, hr, hbefore⟩ := List.findSome?_eq_some_iff.1 hfind
    obtain ⟨first, c, rest, rfl, rfl, rfl⟩ := exists_of_history_eq_append heq
    obtain ⟨warnings, hrun⟩ := performAll_eq_of_some hstarts rest { session := s }
      hbefore hr
    have hmade : history context links (first ++ [c]) s = history context links first s ++
        [recordOf context links c (sessionAfter context links first s)] := history_append _ _ _
    rw [hrun]
    refine ⟨history context links (first ++ [c]) s, ?_, ⟨?_, ?_, hcount _ s⟩, nofun,
      fun g' hg' => ?_⟩
    · rw [heq, hmade]
      exact List.prefix_append_right_inj _ |>.2 (List.prefix_append [_] _)
    · exact (invocation_history context links _ s).symm
    · rw [hmade, List.filterMap_append, List.filterMap_cons_none (failure?_of_ending? hr)]
      exact (List.append_nil _).symm
    · cases hg'
      exact ⟨_, _, hmade, hbefore, hr⟩

/-- **What a traversal does outside strict mode.**  Take a file with line starts.  To be called are,
on every node in preorder, the handlers for the kind of the node, in the order of their
registration; the history tells what happens in these calls, each made in the session that the calls
before it leave.  The traversal comes to its end exactly if every fault with which a call fails can
be shown and has a message, and then it makes all of them.  Otherwise the first call whose fault
cannot be told is the last, and the traversal ends with the reason why it cannot.

In either case no other call is made, the failures are those of the calls that fail with a fault
that can be told, and under every name as many calls are counted as are made.  Every attempt to add
a handler is refused, and the handlers after the traversal are those before it. -/
theorem run_lenient (context : Context) (links : Links) (session : Session)
    (hstarts : context.tree.lineStarts.size ≠ 0) :
    let records := history context links (agenda session.registry context.tree.root.preorder)
      session.freeze
    let ended := run false context links session
    records.map Record.invocation = context.tree.root.preorder.flatMap (fun n =>
      (session.registry.processorsFor n.kind).map (fun p => ⟨p.rule, p.owner, n⟩)) ∧
    (ended.1 = none ↔ ∀ r ∈ records, ∀ f, r.fault = some f →
      (∃ s, f.shown = .ok s) ∧ ∃ s, f.message = .ok s) ∧
    (∃ made, made <+: records ∧ Notes context.tree made ended.2 ∧
      (ended.1 = none → made = records) ∧
      ∀ g, ended.1 = some g → ∃ before r f why, made = before ++ [r] ∧
        (∀ b ∈ before, ∀ f, b.fault = some f → f.untold? = none) ∧
        r.fault = some f ∧ f.untold? = some why ∧ g = .text why) ∧
    (∀ r ∈ records, ∀ kind rule answer,
      Event.registered kind rule answer ∈ r.events → answer = .error (.frozen rule)) ∧
    ended.2.session.registry = session.registry.freeze ∧
    ∀ kind, ended.2.session.registry.processorsFor kind = session.registry.processorsFor kind := by
  intro records ended
  have hended : ended = performAll false context links
      (agenda session.registry context.tree.root.preorder) { session := session.freeze } :=
    run_eq_performAll session
  have hregistry : ended.2.session.registry = session.registry.freeze := by
    rw [hended]
    exact registry_performAll _ rfl
  refine ⟨?_, ?_, ?_, ?_, hregistry, ?_⟩
  · rw [invocation_history]
    simp only [agenda, List.map_flatMap, List.map_map]
    rfl
  · rw [hended, performAll_fst hstarts, List.findSome?_eq_none_iff]
    simp only [Record.ending?_lenient_eq_none_iff, Fault.untold?_eq_none_iff]
    rfl
  · obtain ⟨made, hinitial, hnotes, hall, hlast⟩ := exists_notes_performAll links hstarts
      (agenda session.registry context.tree.root.preorder) session.freeze
    rw [hended]
    refine ⟨made, hinitial, hnotes, hall, fun g hg => ?_⟩
    obtain ⟨before, r, hmade, hbefore, hr⟩ := hlast g hg
    obtain ⟨f, why, hf, huntold, rfl⟩ := Record.ending?_lenient_eq_some_iff.1 hr
    exact ⟨before, r, f, why, hmade,
      fun b hb => Record.ending?_lenient_eq_none_iff.1 (hbefore b hb), hf, huntold, rfl⟩
  · intro r hr kind rule answer he
    exact refused_of_mem_history _ rfl hr he
  · intro kind
    rw [hregistry]
    exact Registry.processorsFor_freeze _ _

end Law

/-- A file with one block. -/
def blockFile : Tree where
  root := .mk 0 ⟨0, 2⟩ .unresolved (.block [])
  path := "block.dart"
  text := none
  lineStarts := #[0]

/-- The context of this file, without settings. -/
def blockContext : Context := ⟨blockFile, []⟩

lemma preorder_blockFile : blockFile.root.preorder = [blockFile.root] := by
  rw [Node.preorder_eq]
  rfl

/-- A session of this file with some handlers for blocks. -/
def blockSession (handlers : List Processor) : Session where
  reporter := { tree := blockFile, strict := false, severities := [], limit := none }
  registry := { processors := [(.block, handlers)] }
  supertypes := ⟨Hierarchy.standard, []⟩

/-- This file is visited by one call of each of these handlers. -/
lemma agenda_blockSession (handlers : List Processor) :
    agenda (blockSession handlers).registry blockFile.root.preorder =
      handlers.map (Call.mk blockFile.root) := by
  rw [preorder_blockFile, agenda, List.flatMap_cons, List.flatMap_nil, List.append_nil]
  rfl

/-- A handler that tries to add another one and lets the refusal through. -/
def lateHandler : Handler := fun _ _ =>
  .register (.string "block") "late" true (fun _ _ => .done) (.orFail .done)

/-- A session with this handler and one that does nothing. -/
def lateSession : Session :=
  blockSession [⟨"late", "late", lateHandler⟩, ⟨"calm", "calm", fun _ _ => .done⟩]

/-- A fault that holds an integer with too many digits. -/
def untellable : Fault := .raised (.other "ValueError") [.int Value.leastLong]

lemma untold?_untellable [Machine] : untellable.untold? = some .longInteger := by
  have hitems : Value.quotedItems [.int Value.leastLong] = .error .longInteger := by
    rw [Value.quotedItems, Value.itemsWithin, Value.quotedWithin, Value.decimal_leastLong]
    rfl
  have hshown : untellable.shown = .error .longInteger := by
    rw [untellable, Fault.shown, hitems]
    rfl
  rw [Fault.untold?, hshown]

attribute [local instance] Machine.small

theorem run_lenient_late :
    blockContext.tree.lineStarts.size ≠ 0 ∧ ∃ t : Traversal,
      run false blockContext ∅ lateSession = (none, t) ∧
      t.failures = [⟨"late", "block", "block.dart", ⟨0, 2⟩,
        "RegistryFrozenError: Rule 'late' tried to register after the registry was frozen"⟩] ∧
      callsUnder "late" t.calls = 1 ∧ callsUnder "calm" t.calls = 1 := by
  have hstarts : blockContext.tree.lineStarts.size ≠ 0 := by decide
  obtain ⟨-, hreturns, ⟨made, -, hnotes, hall, -⟩, -⟩ :=
    run_lenient blockContext ∅ lateSession hstarts
  have hrecords : history blockContext ∅
      (agenda lateSession.registry blockContext.tree.root.preorder) lateSession.freeze =
      [⟨⟨"late", "late", blockFile.root⟩,
          [.registered (.string "block") "late" (.error (.frozen "late")),
            .failed (.frozen "late")], some (.frozen "late")⟩,
        ⟨⟨"calm", "calm", blockFile.root⟩, [], none⟩] := by
    rw [lateSession, blockContext, agenda_blockSession]
    rfl
  rw [hrecords] at hreturns hall
  have hreturned := hreturns.2 (by
    rw [List.forall_mem_cons, List.forall_mem_singleton]
    refine ⟨fun f hf => ?_, nofun⟩
    cases hf
    exact ⟨⟨_, rfl⟩, _, rfl⟩)
  obtain rfl := hall hreturned
  refine ⟨hstarts, _, Prod.ext hreturned rfl, ?_, ?_, ?_⟩
  · rw [hnotes.failures_eq]
    rfl
  · rw [hnotes.calls_eq]
    rfl
  · rw [hnotes.calls_eq]
    rfl

/-- Not every traversal comes to its end: a call may fail with a fault that cannot be told. -/
theorem not_forall_run_returns :
    ¬∀ (context : Context) (links : Links) (session : Session),
      context.tree.lineStarts.size ≠ 0 → (run false context links session).1 = none := by
  intro h
  have hreturns := h blockContext ∅ (blockSession [⟨"odd", "odd", fun _ _ => .fail untellable⟩])
    (by decide)
  rw [run_eq_performAll, performAll_fst (by decide), blockContext, agenda_blockSession] at hreturns
  simp only [List.map_cons, List.map_nil, history, recordOf, Call.script, Script.run,
    List.findSome?_singleton, Record.ending?, Bool.false_and, Bool.false_eq_true, if_false,
    untold?_untellable, Option.map_some] at hreturns
  cases hreturns

end TreeLint.Traversal
