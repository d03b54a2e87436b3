/-
Which parameters the arguments of a call are bound to.

An argument finds its parameter through its parents: its list of arguments, and the call
above the list.  In a tree that was built these are the list that holds it and the parent of
the list, so `Links.parameter?_eq` reads the parameter off the call.  The place of an
argument without a name among the others of its sort is the place of its parameter among the
positional parameters (`Site.bind?_positional`), wherever named ones stand on either side.
-/
import Mathlib.Data.List.Nodup
import TreeLint.Proofs.Syntax.Binding
import TreeLint.Proofs.Syntax.Parents
namespace TreeLint

namespace Node

variable {n method : Node} {e : Executable}

/-- A call of a method, of a function value or of a constructor that the resolver knows as an
executable. -/
inductive ResolvesTo (n : Node) (e : Executable) : Prop where
  /-- The name of the method refers to it. -/
  | method {target arguments : Option Node} {method : Node} {isCascaded : Bool} {name : String}
    (hform : n.form = .methodInvocation target (some method) arguments isCascaded)
    (hmethod : method.form = .simpleIdentifier name (some (.executable e)))
  /-- The function value is it. -/
  | function {function arguments : Option Node}
    (hform : n.form = .functionExpressionInvocation function arguments (some (.executable e)))
  /-- The constructor is it. -/
  | creation {keyword : Option String} {type constructor arguments : Option Node}
    (hform : n.form = .instanceCreationExpression keyword type constructor arguments
      (some (.executable e)))

/-- A call of a method with a node in the place of the name that is no identifier. -/
def IsMisnamed (n method : Node) : Prop :=
  ∃ target arguments isCascaded,
    n.form = .methodInvocation target (some method) arguments isCascaded ∧
      method.kind ≠ .simpleIdentifier

lemma ResolvesTo.invoked? (h : n.ResolvesTo e) : n.invoked? = .ok (some e) := by
  cases h with
  | method hform hmethod =>
    simp only [Node.invoked?, hform, referent, hmethod]
    rfl
  | function hform =>
    simp only [Node.invoked?, hform]
    rfl
  | creation hform =>
    simp only [Node.invoked?, hform]
    rfl

lemma IsMisnamed.invoked? (h : n.IsMisnamed method) :
    n.invoked? = .error (.noMember method.kind.className "static_element") := by
  obtain ⟨target, arguments, isCascaded, hform, hkind⟩ := h
  have hreferent : method.referent = .error (.noMember method.kind.className "static_element") := by
    rw [referent]
    split
    · next name element hmethod =>
      rw [kind, hmethod] at hkind
      exact absurd rfl hkind
    · rfl
  simp only [Node.invoked?, hform, hreferent]
  rfl

lemma executable?_cases (element : Option Element) :
    element.bind Element.executable? = none ∨ ∃ e, element = some (.executable e) := by
  rcases element with _ | element
  · exact .inl rfl
  · cases element with
    | executable e => exact .inr ⟨e, rfl⟩
    | _ => exact .inl rfl

/-- Nodes that are no calls, and calls of what the resolver does not know, resolve to nothing. -/
lemma invoked?_cases (n : Node) :
    n.invoked? = .ok none ∨ (∃ e, n.ResolvesTo e) ∨ ∃ method, n.IsMisnamed method := by
  obtain ⟨id, span, staticType, form⟩ := n
  cases form with
  | methodInvocation target method arguments isCascaded =>
    rcases method with _ | method
    · exact .inl rfl
    · by_cases hkind : method.kind = .simpleIdentifier
      · obtain ⟨name, element, hmethod⟩ := form_eq_simpleIdentifier hkind
        have hreferent : method.referent = .ok element := by rw [referent, hmethod]
        rcases executable?_cases element with hnone | ⟨e, rfl⟩
        · left
          simp only [Node.invoked?, form, hreferent, Except.map, hnone]
        · exact .inr (.inl ⟨e, .method rfl hmethod⟩)
      · exact .inr (.inr ⟨method, target, arguments, isCascaded, rfl, hkind⟩)
  | functionExpressionInvocation function arguments element =>
    rcases executable?_cases element with hnone | ⟨e, rfl⟩
    · left
      simp only [Node.invoked?, form, hnone]
    · exact .inr (.inl ⟨e, .function rfl⟩)
  | instanceCreationExpression keyword type constructor arguments element =>
    rcases executable?_cases element with hnone | ⟨e, rfl⟩
    · left
      simp only [Node.invoked?, form, hnone]
    · exact .inr (.inl ⟨e, .creation rfl⟩)
  | _ => exact .inl rfl

end Node

/-! ### Places among the arguments -/

/-- A member of a filtered list has its place because of what stands before it. -/
lemma exists_append_of_getElem?_filter {α : Type} {p : α → Bool} {l : List α} {k : Nat} {a : α}
    (h : (l.filter p)[k]? = some a) :
    ∃ before after, l = before ++ a :: after ∧ p a = true ∧ before.countP p = k := by
  induction l generalizing k with
  | nil => simp at h
  | cons b l ih =>
    by_cases hb : p b = true
    · rw [List.filter_cons_of_pos hb] at h
      cases k with
      | zero =>
        obtain rfl : b = a := by simpa using h
        exact ⟨[], l, rfl, hb, rfl⟩
      | succ k =>
        obtain ⟨before, after, rfl, ha, hk⟩ := ih (by simpa using h)
        exact ⟨b :: before, after, rfl, ha, by rw [List.countP_cons_of_pos hb, hk]⟩
    · rw [List.filter_cons_of_neg hb] at h
      obtain ⟨before, after, rfl, ha, hk⟩ := ih h
      exact ⟨b :: before, after, rfl, ha, by rw [List.countP_cons_of_neg hb, hk]⟩

namespace Site

variable {arguments : List Node} {a : Node} {e : Executable}

/-- An argument with a name is bound to the first named parameter of this name. -/
lemma bind?_named {name : String} {expression : Option Node}
    (hform : a.form = .namedExpression name expression) :
    bind? e arguments a = e.parameters.find? fun p => p.isNamed && p.name == name := by
  simp only [bind?, hform]
  rfl

/-- An argument without a name has its place among the others of its sort, and its parameter has
the same place among the positional parameters. -/
lemma bind?_positional (hdistinct : (arguments.map Node.id).Nodup) {k : Nat}
    (hk : (arguments.filter fun b => !b.isNamedArgument)[k]? = some a) :
    bind? e arguments a = (e.parameters.filter fun p => !p.isNamed)[k]? := by
  obtain ⟨before, after, rfl, ha, hcount⟩ := exists_append_of_getElem?_filter hk
  have hfirst : a.id ∉ before.map Node.id := by
    rw [List.map_append, List.map_cons] at hdistinct
    exact fun hmem => List.disjoint_of_nodup_append hdistinct hmem List.mem_cons_self
  rw [bind?]
  split
  · next name expression hform =>
    rw [Node.isNamedArgument, Node.kind, hform] at ha
    cases ha
  · rw [Node.positionIn?_append hfirst, Option.bind_some, hcount]
    rfl

end Site

/-! ### Call sites of a tree -/

namespace Links

variable {links links₀ : Links} {root list call a : Node} {arguments : List Node} {e : Executable}

/-- A list of arguments of a tree, and the node above it. -/
structure IsArgumentList (links : Links) (root list : Node) (arguments : List Node)
    (call : Node) : Prop where
  mem : list ∈ root.preorder
  form : list.form = .argumentList arguments
  parent : links[list.id]? = some call

/-- In a tree that was built, the parameter of an argument is read off the call above its list. -/
lemma parameter?_eq (h : links₀.addTree root = .ok links)
    (hlist : links.IsArgumentList root list arguments call) (ha : a ∈ arguments) :
    (links.site a).parameter? =
      call.invoked?.map fun e => e.bind fun e => Site.bind? e arguments a := by
  obtain ⟨hdistinct, hparents⟩ := parents_of_addTree h
  have hchild : a ∈ list.children := by
    rw [Node.children, hlist.form]
    exact ha
  have hparent := hparents list hlist.mem a hchild
  have hne : a.id ≠ list.id := by
    intro heq
    have hmem := Node.mem_preorder_of_mem_children hlist.mem hchild
    have hsame := List.inj_on_of_nodup_map hdistinct hmem hlist.mem heq
    have hlt := Node.sizeOf_lt_of_mem_children hchild
    rw [hsame] at hlt
    exact Nat.lt_irrefl _ hlt
  -- the argument and its list have a link each, so the search for ancestors gets past the list
  have hsize : 2 ≤ links.size := by
    have hsubset : [a.id, list.id] ⊆ links.keys := by
      simp [Std.HashMap.mem_iff_isSome_getElem?, hparent, hlist.parent]
    have hle := (List.subperm_of_subset (by simpa using hne) hsubset).length_le
    rwa [Std.HashMap.length_keys] at hle
  obtain ⟨bound, hbound⟩ := Nat.exists_eq_add_of_le' hsize
  have hancestors : (links.site a).ancestors =
      list :: call :: links.ancestorsUpTo bound call := by
    rw [ancestors_site, ancestors, hbound, ancestorsUpTo]
    simp only [hparent]
    rw [ancestorsUpTo]
    simp only [hlist.parent]
  rw [Site.parameter?, hancestors]
  simp only [hlist.form, node_site]

/-- An argument of a call that resolves to an executable is bound to a parameter of it. -/
lemma parameter?_of_resolvesTo (h : links₀.addTree root = .ok links)
    (hlist : links.IsArgumentList root list arguments call) (he : call.ResolvesTo e)
    (ha : a ∈ arguments) : (links.site a).parameter? = .ok (Site.bind? e arguments a) := by
  rw [parameter?_eq h hlist ha, he.invoked?]
  rfl

lemma distinct_arguments (h : links₀.addTree root = .ok links)
    (hlist : links.IsArgumentList root list arguments call) : (arguments.map Node.id).Nodup := by
  obtain ⟨hdistinct, -⟩ := parents_of_addTree h
  have hchildren := Node.nodup_children hdistinct hlist.mem
  rwa [Node.children, hlist.form] at hchildren

/-- The argument without a name that has a place among the others of its sort is bound to the
positional parameter in the same place. -/
lemma parameter?_positional (h : links₀.addTree root = .ok links)
    (hlist : links.IsArgumentList root list arguments call) (he : call.ResolvesTo e) {k : Nat}
    (hk : (arguments.filter fun b => !b.isNamedArgument)[k]? = some a) :
    (links.site a).parameter? = .ok (e.parameters.filter fun p => !p.isNamed)[k]? := by
  have ha := List.mem_of_mem_filter (List.mem_of_getElem? hk)
  rw [parameter?_of_resolvesTo h hlist he ha, Site.bind?_positional (distinct_arguments h hlist) hk]

/-- An argument with a name is bound to the first named parameter of this name. -/
lemma parameter?_named (h : links₀.addTree root = .ok links)
    (hlist : links.IsArgumentList root list arguments call) (he : call.ResolvesTo e)
    (ha : a ∈ arguments) {name : String} {expression : Option Node}
    (hform : a.form = .namedExpression name expression) :
    (links.site a).parameter? = .ok (e.parameters.find? fun p => p.isNamed && p.name == name) := by
  rw [parameter?_of_resolvesTo h hlist he ha, Site.bind?_named hform]

/-- Arguments with a name are bound to named parameters, the others to positional ones. -/
lemma isNamed_of_parameter? (h : links₀.addTree root = .ok links)
    (hlist : links.IsArgumentList root list arguments call) (he : call.ResolvesTo e)
    (ha : a ∈ arguments) {p : Parameter} (hp : (links.site a).parameter? = .ok (some p)) :
    p.isNamed = a.isNamedArgument := by
  by_cases hnamed : a.isNamedArgument = true
  · obtain ⟨name, expression, hform⟩ := Node.form_eq_namedExpression (beq_iff_eq.1 hnamed)
    rw [parameter?_named h hlist he ha hform, Except.ok.injEq] at hp
    have hfound := List.find?_some hp
    rw [Bool.and_eq_true] at hfound
    rw [hfound.1, hnamed]
  · have hmem : a ∈ arguments.filter fun b => !b.isNamedArgument := by
      rw [List.mem_filter]
      exact ⟨ha, by simpa using hnamed⟩
    obtain ⟨k, hk⟩ := List.getElem?_of_mem hmem
    rw [parameter?_positional h hlist he hk, Except.ok.injEq] at hp
    have hpositional := List.of_mem_filter (List.mem_of_getElem? hp)
    simp only [Bool.not_eq_true] at hnamed
    rw [hnamed]
    simpa using hpositional

/-- The nearest ancestor of a node is its parent, and the others are the ancestors of the parent. -/
lemma parent_of_ancestorsUpTo {bound : Nat} {n p : Node} {above : List Node}
    (h : links.ancestorsUpTo bound n = p :: above) :
    links[n.id]? = some p ∧ ∃ bound', links.ancestorsUpTo bound' p = above := by
  cases bound with
  | zero => cases h
  | succ bound =>
    rw [ancestorsUpTo] at h
    split at h
    · cases h
    · next hparent =>
      cases h
      exact ⟨hparent, bound, rfl⟩

/-- What is no argument of a call, or stands in a call that resolves to nothing, is bound to
nothing. -/
lemma parameter?_of_unresolved {n : Node}
    (h : ∀ list arguments call, links[n.id]? = some list → list.form = .argumentList arguments →
      links[list.id]? = some call → call.invoked? = .ok none) :
    (links.site n).parameter? = .ok none := by
  rw [Site.parameter?]
  split
  · next list call above hancestors =>
    obtain ⟨hparent, bound, hlist⟩ := parent_of_ancestorsUpTo hancestors
    obtain ⟨hgrandparent, -⟩ := parent_of_ancestorsUpTo hlist
    split
    · next arguments hform =>
      rw [h list arguments call hparent hform hgrandparent]
      rfl
    · rfl
  · rfl

/-- **Which parameters arguments are bound to.**  Take a tree that was built and a list of arguments
in it, under a call that resolves to an executable.  Among the arguments without a name each is
bound to the positional parameter in its place, or to nothing if there are not that many; an
argument with a name is bound to the first named parameter of this name, or to nothing.  So
different arguments without a name never share a place, the two sorts are never mixed up, and in
another tree where the same arguments without a name stand under a call of the same executable, they
are bound alike, whatever arguments with a name there are.  A node that does not stand in such a
list is bound to nothing, unless the call above its list has something else than an identifier for
the name of its method: then the question is a fault. -/
theorem parameter?_law {links₀ links : Links} {root : Node} (h : links₀.addTree root = .ok links) :
    (∀ list arguments call e, links.IsArgumentList root list arguments call → call.ResolvesTo e →
      (∀ (k : Nat) a, (arguments.filter fun b => !b.isNamedArgument)[k]? = some a →
        (links.site a).parameter? = .ok (e.parameters.filter fun p => !p.isNamed)[k]?) ∧
      (∀ a ∈ arguments, ∀ name expression, a.form = .namedExpression name expression →
        (links.site a).parameter? =
          .ok (e.parameters.find? fun p => p.isNamed && p.name == name)) ∧
      (∀ a ∈ arguments, ∀ b ∈ arguments, a.isNamedArgument = false → b.isNamedArgument = false →
        a ≠ b → ∃ k l : Nat, k ≠ l ∧
          (links.site a).parameter? = .ok (e.parameters.filter fun p => !p.isNamed)[k]? ∧
          (links.site b).parameter? = .ok (e.parameters.filter fun p => !p.isNamed)[l]?) ∧
      (∀ a ∈ arguments, ∀ p, (links.site a).parameter? = .ok (some p) →
        p.isNamed = a.isNamedArgument) ∧
      ∀ links₀' links' root' list' arguments' call', Links.addTree links₀' root' = .ok links' →
        links'.IsArgumentList root' list' arguments' call' → call'.ResolvesTo e →
        (arguments'.filter fun b => !b.isNamedArgument) =
          (arguments.filter fun b => !b.isNamedArgument) →
        ∀ a ∈ arguments, a.isNamedArgument = false →
          (links'.site a).parameter? = (links.site a).parameter?) ∧
    (∀ n, (∀ list arguments call, links[n.id]? = some list →
        list.form = .argumentList arguments → links[list.id]? = some call →
        (∀ e, ¬call.ResolvesTo e) ∧ ∀ method, ¬call.IsMisnamed method) →
      (links.site n).parameter? = .ok none) ∧
    (∀ list arguments call method, links.IsArgumentList root list arguments call →
      call.IsMisnamed method → ∀ a ∈ arguments, (links.site a).parameter? =
        .error (.noMember method.kind.className "static_element")) := by
  refine ⟨fun list arguments call e hlist he => ?_, fun n hn => ?_, ?_⟩
  · -- every argument without a name has a place among the others of its sort
    have hplace : ∀ a ∈ arguments, a.isNamedArgument = false →
        ∃ k : Nat, (arguments.filter fun b => !b.isNamedArgument)[k]? = some a := by
      intro a ha hpositional
      refine List.getElem?_of_mem (List.mem_filter.2 ⟨ha, ?_⟩)
      rw [hpositional]
      rfl
    refine ⟨fun k a hk => parameter?_positional h hlist he hk,
      fun a ha name expression hform => parameter?_named h hlist he ha hform, ?_,
      fun a ha p hp => isNamed_of_parameter? h hlist he ha hp, ?_⟩
    · intro a ha b hb hpa hpb hne
      obtain ⟨k, hk⟩ := hplace a ha hpa
      obtain ⟨l, hl⟩ := hplace b hb hpb
      refine ⟨k, l, ?_, parameter?_positional h hlist he hk, parameter?_positional h hlist he hl⟩
      rintro rfl
      rw [hk] at hl
      exact hne (Option.some.inj hl)
    · intro links₀' links' root' list' arguments' call' h' hlist' he' heq a ha hpa
      obtain ⟨k, hk⟩ := hplace a ha hpa
      rw [parameter?_positional h hlist he hk]
      rw [← heq] at hk
      exact parameter?_positional h' hlist' he' hk
  · refine parameter?_of_unresolved fun list arguments call hparent hform hgrandparent => ?_
    obtain ⟨hresolves, hnamed⟩ := hn list arguments call hparent hform hgrandparent
    rcases call.invoked?_cases with hnone | ⟨e, he⟩ | ⟨method, hmethod⟩
    · exact hnone
    · exact absurd he (hresolves e)
    · exact absurd hmethod (hnamed method)
  · intro list arguments call method hlist hmethod a ha
    rw [parameter?_eq h hlist ha, hmethod.invoked?]
    rfl

/-! ### Two calls with the same arguments -/

/-- The parameter `separator`, passed by name. -/
def separator : Parameter := ⟨1, "separator", .unresolved, .named⟩

/-- The parameter `count`, passed by position. -/
def count : Parameter := ⟨2, "count", .unresolved, .requiredPositional⟩

/-- A function with these parameters, the named one first. -/
def repeatFunction : Executable := ⟨0, "repeat", [separator, count], .unresolved, none⟩

/-- The argument `separator:`. -/
def separatorArgument : Node := .mk 2 ⟨7, 17⟩ .unresolved (.namedExpression "separator" none)

/-- The argument `3`. -/
def countArgument : Node := .mk 3 ⟨19, 20⟩ .unresolved (.integerLiteral "3" (some 3))

/-- The list of these arguments, the one with a name first. -/
def repeatArguments : Node :=
  .mk 1 ⟨6, 21⟩ .unresolved (.argumentList [separatorArgument, countArgument])

/-- A call of the function. -/
def repeatCall : Node := .mk 0 ⟨0, 21⟩ .unresolved
  (.functionExpressionInvocation none (some repeatArguments) (some (.executable repeatFunction)))

/-- The name of a method that is no simple identifier. -/
def dottedName : Node := .mk 4 ⟨0, 6⟩ .unresolved (.prefixedIdentifier none none)

/-- A call of a method with this name. -/
def dottedCall : Node := .mk 0 ⟨0, 21⟩ .unresolved
  (.methodInvocation none (some dottedName) (some repeatArguments) false)

lemma ids_repeatCall : repeatCall.id = 0 ∧ dottedCall.id = 0 ∧ repeatArguments.id = 1 ∧
    separatorArgument.id = 2 ∧ countArgument.id = 3 ∧ dottedName.id = 4 :=
  ⟨rfl, rfl, rfl, rfl, rfl, rfl⟩

lemma children_repeatCall : repeatCall.children = [repeatArguments] ∧
    dottedCall.children = [dottedName, repeatArguments] ∧
    repeatArguments.children = [separatorArgument, countArgument] ∧
    separatorArgument.children = [] ∧ countArgument.children = [] ∧ dottedName.children = [] :=
  ⟨rfl, rfl, rfl, rfl, rfl, rfl⟩

lemma exists_addTree_repeatCall : ∃ links, (∅ : Links).addTree repeatCall = .ok links := by
  simp [addTree, addBelow, addChildren, ids_repeatCall, children_repeatCall]

lemma exists_addTree_dottedCall : ∃ links, (∅ : Links).addTree dottedCall = .ok links := by
  simp [addTree, addBelow, addChildren, ids_repeatCall, children_repeatCall]

/-- The list of the arguments stands under each of the calls. -/
lemma isArgumentList_repeatArguments {call : Node} (h : links₀.addTree call = .ok links)
    (hlist : repeatArguments ∈ call.children) :
    links.IsArgumentList call repeatArguments [separatorArgument, countArgument] call := by
  obtain ⟨-, hparents⟩ := parents_of_addTree h
  exact ⟨Node.mem_preorder_of_mem_children call.mem_preorder_self hlist, rfl,
    hparents call call.mem_preorder_self _ hlist⟩

theorem parameter?_law_repeat : ∃ links, (∅ : Links).addTree repeatCall = .ok links ∧
    (links.site separatorArgument).parameter? = .ok (some separator) ∧
    (links.site countArgument).parameter? = .ok (some count) := by
  obtain ⟨links, h⟩ := exists_addTree_repeatCall
  have hlist := isArgumentList_repeatArguments h List.mem_cons_self
  obtain ⟨hcalls, -⟩ := parameter?_law h
  obtain ⟨hpositional, hnamed, -⟩ := hcalls _ _ _ repeatFunction hlist (.function rfl)
  exact ⟨links, h, hnamed separatorArgument (by simp) "separator" none rfl,
    hpositional 0 countArgument rfl⟩

/-- A call that resolves to nothing need not leave its arguments unbound: if the name of its method
is dotted, the question is a fault. -/
theorem not_parameter?_of_not_resolvesTo :
    ¬∀ (links₀ links : Links) (root : Node), links₀.addTree root = .ok links →
      ∀ n ∈ root.preorder, (∀ list arguments call e, links[n.id]? = some list →
          list.form = .argumentList arguments → links[list.id]? = some call →
          ¬call.ResolvesTo e) →
        (links.site n).parameter? = .ok none := by
  intro hall
  obtain ⟨links, h⟩ := exists_addTree_dottedCall
  have hmem : repeatArguments ∈ dottedCall.children := by simp [children_repeatCall]
  have hlist := isArgumentList_repeatArguments h hmem
  have hargument : countArgument ∈ [separatorArgument, countArgument] := by simp
  obtain ⟨-, hparents⟩ := parents_of_addTree h
  have hparent : links[countArgument.id]? = some repeatArguments :=
    hparents _ hlist.mem _ hargument
  have hbelow := Node.mem_preorder_of_mem_children hlist.mem hargument
  have hfault : (links.site countArgument).parameter? =
      .error (.noMember dottedName.kind.className "static_element") := by
    rw [parameter?_eq h hlist hargument,
      Node.IsMisnamed.invoked? ⟨none, some repeatArguments, false, rfl, by decide⟩]
    rfl
  have hnone := hall ∅ links dottedCall h countArgument hbelow ?_
  · rw [hfault] at hnone
    cases hnone
  · intro list arguments call e hlink _ hcall he
    rw [hparent] at hlink
    cases hlink
    rw [hlist.parent] at hcall
    cases hcall
    -- the form of the call is one of a method, and its name is no simple identifier
    cases he with
    | method hform hmethod =>
      cases hform
      cases hmethod
    | function hform => cases hform
    | creation hform => cases hform

end Links

end TreeLint
