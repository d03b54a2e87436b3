/-
Static types and receivers of expressions.

What the resolver answers about an expression in a well-kinded tree, told by the
shape of the tree: the expression inside all parentheses (`Node.StripsTo`), its static
type, which for a name without one is that of the element (`Node.HasStaticType`), and
the receiver of a section of a cascade, which is the target of the nearest cascade
above it (`Node.IsReceiver`).  The questions of the resolver have just these answers:
`Node.HasStaticType.resolvedType_eq` and `Node.IsReceiver.eq`.
-/
import TreeLint.Proofs.Syntax.Parents
import TreeLint.Proofs.Syntax.WellKinded
namespace TreeLint

namespace Node

variable {root n e : Node}

lemma IsWellKinded.declared (h : n.IsWellKinded) : n.form.HasDeclaredKinds :=
  h n n.mem_preorder_self

lemma IsWellKinded.of_mem (h : root.IsWellKinded) (hn : n ∈ root.preorder) : n.IsWellKinded :=
  fun m hm => h m ((preorder_sublist hn).subset hm)

lemma IsWellKinded.child (h : n.IsWellKinded) (he : e ∈ n.children) : e.IsWellKinded :=
  h.of_mem (mem_preorder_of_mem_children n.mem_preorder_self he)

/-! ### Parentheses -/

/-- Whether a node is an expression in parentheses. -/
def Encloses (n e : Node) : Prop := n.form = .parenthesizedExpression (some e)

/-- Whether a node becomes another one when any number of parentheses around it is taken off. -/
inductive StripsTo : Node → Node → Prop
  /-- Nothing is taken off. -/
  | refl (n : Node) : StripsTo n n
  /-- One pair of parentheses is taken off, and then others. -/
  | parentheses {n e m : Node} (hn : n.Encloses e) (he : StripsTo e m) : StripsTo n m

lemma Encloses.mem_children (h : n.Encloses e) : e ∈ n.children := by
  rw [children, show n.form = _ from h]
  exact List.mem_singleton.2 rfl

lemma Encloses.unparenthesized_eq (h : n.Encloses e) : n.unparenthesized = e.unparenthesized := by
  obtain ⟨id, span, staticType, form⟩ := n
  cases h
  rfl

lemma unparenthesized_of_not_encloses (h : ∀ e, ¬ n.Encloses e) : n.unparenthesized = n := by
  obtain ⟨id, span, staticType, form⟩ := n
  cases form with
  | parenthesizedExpression inner =>
    cases inner with
    | none => rfl
    | some e => exact absurd rfl (h e)
  | _ => rfl

lemma stripsTo_unparenthesized (n : Node) : n.StripsTo n.unparenthesized := by
  induction n using Node.induction with
  | step n ih =>
    by_cases h : ∃ e, n.Encloses e
    · obtain ⟨e, he⟩ := h
      rw [he.unparenthesized_eq]
      exact .parentheses he (ih e he.mem_children)
    · rw [unparenthesized_of_not_encloses fun e he => h ⟨e, he⟩]
      exact .refl n

lemma StripsTo.unparenthesized_eq (h : n.StripsTo e) (hbare : ∀ m, ¬ e.Encloses m) :
    n.unparenthesized = e := by
  induction h with
  | refl n => exact unparenthesized_of_not_encloses hbare
  | parentheses hn _ ih => rw [hn.unparenthesized_eq, ih hbare]

lemma StripsTo.mem_preorder (h : n.StripsTo e) (hn : n ∈ root.preorder) : e ∈ root.preorder := by
  induction h with
  | refl n => exact hn
  | parentheses hinner _ ih => exact ih (mem_preorder_of_mem_children hn hinner.mem_children)

lemma Encloses.isExpression (h : n.Encloses e) (hkinds : n.IsWellKinded) :
    e.isExpression = true := by
  have hdeclared := hkinds.declared
  rw [show n.form = _ from h] at hdeclared
  exact hdeclared e rfl

/-! ### Static types -/

/-- The static type of an expression, unresolved if it is not known: its own, else that of the
element that it names, and around it parentheses make no difference. -/
inductive HasStaticType : Node → Ty → Prop
  /-- The resolver gave the expression a type. -/
  | known {n : Node} (hbare : ∀ e, ¬ n.Encloses e) (hknown : n.staticType ≠ .unresolved) :
    HasStaticType n n.staticType
  /-- The expression names an element, and has no type of its own. -/
  | ofElement {n : Node} {name : String} {element : Element}
    (hn : n.form = .simpleIdentifier name (some element)) (htype : n.staticType = .unresolved) :
    HasStaticType n element.type
  /-- The expression has no type, and names nothing. -/
  | unknown {n : Node} (hbare : ∀ e, ¬ n.Encloses e) (htype : n.staticType = .unresolved)
    (hnameless : ∀ name element, n.form ≠ .simpleIdentifier name (some element)) :
    HasStaticType n .unresolved
  /-- The expression stands in parentheses. -/
  | parentheses {n e : Node} {t : Ty} (hn : n.Encloses e) (he : HasStaticType e t) :
    HasStaticType n t

lemma exists_hasStaticType (n : Node) : ∃ t, n.HasStaticType t := by
  induction n using Node.induction with
  | step n ih =>
    by_cases hinner : ∃ e, n.Encloses e
    · obtain ⟨e, he⟩ := hinner
      obtain ⟨t, ht⟩ := ih e he.mem_children
      exact ⟨t, .parentheses he ht⟩
    · have hbare : ∀ e, ¬ n.Encloses e := fun e he => hinner ⟨e, he⟩
      by_cases htype : n.staticType = .unresolved
      · by_cases hname : ∃ name element, n.form = .simpleIdentifier name (some element)
        · obtain ⟨name, element, hn⟩ := hname
          exact ⟨_, .ofElement hn htype⟩
        · exact ⟨_, .unknown hbare htype fun name element hn => hname ⟨name, element, hn⟩⟩
      · exact ⟨_, .known hbare htype⟩

/-- The type that the resolver knows of an expression without parentheses. -/
lemma resolvedType_of_bare (hexpression : n.isExpression = true) (hbare : ∀ e, ¬ n.Encloses e) :
    n.resolvedType = .ok (if n.staticType = .unresolved
      then (n.identifierElement?.map Element.type).getD .unresolved else n.staticType) := by
  rw [resolvedType, if_pos hexpression, unparenthesized_of_not_encloses hbare]
  simp only [hexpression, if_true]
  cases n.staticType <;> rfl

/-- **Static types.**  In a well-kinded tree the resolver knows the static type of an expression. -/
theorem HasStaticType.resolvedType_eq {t : Ty} (h : n.HasStaticType t)
    (hexpression : n.isExpression = true) (hkinds : n.IsWellKinded) :
    n.resolvedType = .ok t := by
  induction h with
  | known hbare hknown => rw [resolvedType_of_bare hexpression hbare, if_neg hknown]
  | @ofElement n name element hn htype =>
    have hbare : ∀ e, ¬ n.Encloses e := by
      intro e he
      rw [Encloses, hn] at he
      cases he
    rw [resolvedType_of_bare hexpression hbare, if_pos htype, identifierElement?, hn]
    rfl
  | @unknown n hbare htype hnameless =>
    have hnone : n.identifierElement? = none := by
      unfold identifierElement?
      split
      · next name element hform =>
        rcases element with _ | element
        · rfl
        · exact absurd hform (hnameless name element)
      · rfl
    rw [resolvedType_of_bare hexpression hbare, if_pos htype, hnone]
    rfl
  | @parentheses n e t hn he ih =>
    have hinner := hn.isExpression hkinds
    rw [← ih hinner (hkinds.child hn.mem_children), resolvedType, resolvedType, if_pos hexpression,
      if_pos hinner, hn.unparenthesized_eq]

/-- The static type of an expression that may be missing. -/
def HasStaticTypeOf (r : Option Node) (t : Ty) : Prop :=
  match r with
  | none => t = .unresolved
  | some n => n.HasStaticType t

lemma HasStaticTypeOf.resolvedTypeOf_eq {r : Option Node} {t : Ty} (h : HasStaticTypeOf r t)
    (hr : ∀ n ∈ r, n.isExpression = true ∧ n.IsWellKinded) : resolvedTypeOf r = .ok t := by
  cases r with
  | none =>
    cases h
    rfl
  | some n => exact HasStaticType.resolvedType_eq h (hr n rfl).1 (hr n rfl).2

lemma exists_hasStaticTypeOf (r : Option Node) : ∃ t, HasStaticTypeOf r t := by
  cases r with
  | none => exact ⟨.unresolved, rfl⟩
  | some n => exact n.exists_hasStaticType

/-! ### Receivers -/

/-- The receiver of a property or a call with a target: in a cascade the target of the nearest
cascade above. -/
inductive IsReceiver (root n : Node) (target : Option Node) : Bool → Option Node → Prop
  /-- Outside of cascades the target is the receiver. -/
  | target : IsReceiver root n target false target
  /-- Above a section the nearest cascade is looked for. -/
  | cascade {below above sections : List Node} {c : Node} {received : Option Node}
    (hpath : root.IsPath n (below ++ c :: above))
    (hbelow : ∀ m ∈ below, m.kind ≠ .cascadeExpression)
    (hc : c.form = .cascadeExpression received sections) :
    IsReceiver root n target true received
  /-- Without a cascade above it a section has no receiver. -/
  | nothing {above : List Node} (hpath : root.IsPath n above)
    (habove : ∀ m ∈ above, m.kind ≠ .cascadeExpression) :
    IsReceiver root n target true none

end Node

lemma Site.cascadeTarget?_append {below : List Node}
    (hbelow : ∀ m ∈ below, m.kind ≠ .cascadeExpression) (above : List Node) :
    cascadeTarget? (below ++ above) = cascadeTarget? above := by
  induction below with
  | nil => rfl
  | cons m rest ih =>
    obtain ⟨hm, hrest⟩ := List.forall_mem_cons.1 hbelow
    rw [List.cons_append, cascadeTarget?]
    split
    · next target sections hform => exact absurd (by rw [Node.kind, hform]; rfl) hm
    · exact ih hrest

namespace Node

variable {root n : Node} {links : Links} {target received : Option Node} {isCascaded : Bool}

lemma form_eq_cascadeExpression (h : n.kind = .cascadeExpression) :
    ∃ target sections, n.form = .cascadeExpression target sections := by
  obtain ⟨id, span, staticType, form⟩ := n
  cases form <;> first | exact ⟨_, _, rfl⟩ | cases h

/-- Of the nodes above a node either none is a cascade, or one is the nearest. -/
lemma exists_nearest_cascade (above : List Node) :
    (∀ m ∈ above, m.kind ≠ .cascadeExpression) ∨
      ∃ below c rest, above = below ++ c :: rest ∧ (∀ m ∈ below, m.kind ≠ .cascadeExpression) ∧
        c.kind = .cascadeExpression := by
  induction above with
  | nil => exact .inl (by simp)
  | cons m above ih =>
    by_cases hm : m.kind = .cascadeExpression
    · exact .inr ⟨[], m, above, rfl, by simp, hm⟩
    · rcases ih with hnone | ⟨below, c, rest, rfl, hbelow, hc⟩
      · exact .inl (List.forall_mem_cons.2 ⟨hm, hnone⟩)
      · exact .inr ⟨m :: below, c, rest, rfl, List.forall_mem_cons.2 ⟨hm, hbelow⟩, hc⟩

lemma exists_isReceiver (hn : n ∈ root.preorder) (target : Option Node) (isCascaded : Bool) :
    ∃ received, IsReceiver root n target isCascaded received := by
  cases isCascaded with
  | false => exact ⟨target, .target⟩
  | true =>
    obtain ⟨above, hpath⟩ := exists_isPath hn
    rcases exists_nearest_cascade above with hnone | ⟨below, c, rest, rfl, hbelow, hc⟩
    · exact ⟨none, .nothing hpath hnone⟩
    · obtain ⟨received, sections, hform⟩ := form_eq_cascadeExpression hc
      exact ⟨received, .cascade hpath hbelow hform⟩

/-- **Receivers.**  In a linked tree the receiver is found by a look at the nodes above. -/
theorem IsReceiver.eq (h : IsReceiver root n target isCascaded received)
    (hlinked : links.IsLinked root) :
    (if isCascaded then Site.cascadeTarget? (links.ancestors n) else target) = received := by
  cases h with
  | target => rfl
  | @cascade below above sections c received hpath hbelow hc =>
    rw [if_pos rfl, hlinked.ancestors_eq hpath, Site.cascadeTarget?_append hbelow,
      Site.cascadeTarget?, hc]
  | @nothing above hpath habove =>
    have hnone := Site.cascadeTarget?_append habove []
    rw [List.append_nil] at hnone
    rw [if_pos rfl, hlinked.ancestors_eq hpath, hnone]
    rfl

/-- A receiver is an expression of the tree, if the target is one. -/
lemma IsReceiver.isExpression (h : IsReceiver root n target isCascaded received)
    (hkinds : root.IsWellKinded)
    (htarget : ∀ m ∈ target, m.isExpression = true ∧ m.IsWellKinded) :
    ∀ m ∈ received, m.isExpression = true ∧ m.IsWellKinded := by
  cases h with
  | target => exact htarget
  | @cascade below above sections c received hpath hbelow hc =>
    have hmem : c ∈ root.preorder :=
      hpath.subset_preorder (List.mem_cons_of_mem _ (List.mem_append_right _ List.mem_cons_self))
    have hdeclared := (hkinds.of_mem hmem).declared
    rw [hc] at hdeclared
    intro m hm
    have hchild : m ∈ c.children := by
      rw [children, hc]
      exact List.mem_append_left _ (Option.mem_toList.2 hm)
    exact ⟨hdeclared.1 m hm, (hkinds.of_mem hmem).child hchild⟩
  | nothing hpath habove => exact fun m hm => nomatch hm

end Node

end TreeLint
