/-
Binding the arguments of a call in one pass.

To bind an argument, its place among the arguments without a name is looked up.  All
arguments of a list can as well be bound from left to right, counting those without a
name: `Site.bindAll`.  If the arguments are different nodes, each is bound to the same
parameter both ways (`Site.bind?_of_mem_bindAll`).
-/
import Mathlib.Data.List.Nodup
import TreeLint.Proofs.Syntax.WellKinded
namespace TreeLint

namespace Node

/-- The place of an argument is the number of arguments without a name before it. -/
lemma positionIn?_append {before after : List Node} {a : Node}
    (h : a.id ∉ before.map Node.id) :
    positionIn? a.id (before ++ a :: after) =
      some (before.countP fun b => !b.isNamedArgument) := by
  induction before with
  | nil => rw [List.nil_append, positionIn?, if_pos rfl, List.countP_nil]
  | cons b before ih =>
    rw [List.map_cons, List.mem_cons, not_or] at h
    rw [List.cons_append, positionIn?, if_neg (Ne.symm h.1), ih h.2, Option.map_some,
      List.countP_cons]
    cases b.isNamedArgument <;> rfl

end Node

namespace Site

/-- The arguments of a call with the parameters that they are bound to, if the call resolves to an
executable: an argument with a name to the first named parameter of this name, the others to the
positional parameters in their order, from a place on. -/
def bindAll (callee : Option Executable) : Nat → List Node → List (Node × Option Parameter)
  | _, [] => []
  | k, a :: rest =>
    match a.form with
    | .namedExpression name _ => (a, callee.bind (·.named? name)) :: bindAll callee k rest
    | _ => (a, callee.bind (·.positional[k]?)) :: bindAll callee (k + 1) rest

variable {callee : Option Executable}

/-- Every argument is bound. -/
lemma map_fst_bindAll (callee : Option Executable) (k : Nat) (arguments : List Node) :
    (bindAll callee k arguments).map Prod.fst = arguments := by
  induction arguments generalizing k with
  | nil => rfl
  | cons a rest ih =>
    rw [bindAll]
    split <;> rw [List.map_cons, ih]

/-- From any argument on, binding in one pass agrees with looking up the place. -/
lemma bind?_of_mem_bindAll_append {before rest : List Node}
    (h : ((before ++ rest).map Node.id).Nodup) {p : Node × Option Parameter}
    (hp : p ∈ bindAll callee (before.countP fun b => !b.isNamedArgument) rest) :
    (callee.bind fun e => bind? e (before ++ rest) p.1) = p.2 := by
  induction rest generalizing before with
  | nil => cases hp
  | cons a rest ih =>
    have happend : before ++ a :: rest = (before ++ [a]) ++ rest := by simp
    have hfirst : a.id ∉ before.map Node.id := by
      rw [List.map_append, List.map_cons] at h
      exact fun hmem => List.disjoint_of_nodup_append h hmem List.mem_cons_self
    have hlater := h
    rw [happend] at hlater
    have hcount : (before ++ [a]).countP (fun b => !b.isNamedArgument) =
        before.countP (fun b => !b.isNamedArgument) +
          [a].countP fun b => !b.isNamedArgument := List.countP_append
    rw [bindAll] at hp
    split at hp
    · next name expression hform =>
      have hnamed : a.isNamedArgument = true := by
        rw [Node.isNamedArgument, Node.kind, hform]
        rfl
      rcases List.mem_cons.1 hp with rfl | hp
      · simp only [bind?, hform]
      · rw [happend]
        refine ih hlater ?_
        rwa [hcount, List.countP_singleton, hnamed]
    · next hform =>
      have hpositional : a.isNamedArgument = false := by
        rw [Node.isNamedArgument, Node.kind, beq_eq_false_iff_ne]
        intro hkind
        obtain ⟨name, expression, hnamed⟩ := Node.form_eq_namedExpression hkind
        exact hform name expression hnamed
      rcases List.mem_cons.1 hp with rfl | hp
      · have hbind : ∀ e, bind? e (before ++ a :: rest) a =
            e.positional[before.countP fun b => !b.isNamedArgument]? := by
          intro e
          rw [bind?]
          split
          · next name expression hnamed => exact absurd hnamed (hform name expression)
          · rw [Node.positionIn?_append hfirst, Option.bind_some]
        simp only [hbind]
      · rw [happend]
        refine ih hlater ?_
        rwa [hcount, List.countP_singleton, hpositional]

/-- **Binding in one pass.**  Different arguments are bound to the parameters that their places
tell. -/
theorem bind?_of_mem_bindAll {arguments : List Node} (h : (arguments.map Node.id).Nodup)
    {p : Node × Option Parameter} (hp : p ∈ bindAll callee 0 arguments) :
    (callee.bind fun e => bind? e arguments p.1) = p.2 :=
  bind?_of_mem_bindAll_append (List.nil_append arguments ▸ h) hp

end Site

end TreeLint
