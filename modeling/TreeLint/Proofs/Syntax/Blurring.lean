/-
Two trees, in the second of which less is known about types.

`Node.BlursTo` relates two trees that are the same but for the types: a type that the
resolver found may be blurred in the second tree, be it the static type of an
expression, the type of an annotation or that of an element.  The nodes of the trees
are different ones, so their identities are free.

Nodes that stand in the same place of the two trees are twins (`Node.Twins`).  The
resolver answers every question about twins in the same way, up to the types: it fails
on both with the same fault, or gives answers that correspond (`Agree`).  For the
static type of an expression and the parameter of an argument this is
`Node.BlursTo.resolvedType` and `Node.Twins.parameterType`.
-/
import TreeLint.Proofs.Model.Blurring
import TreeLint.Proofs.Syntax.Parents
import TreeLint.Proofs.Syntax.Receiver
namespace TreeLint

/-! ### The relation between the trees -/

mutual

/-- A node becomes another one when some types in and below it are blurred. -/
inductive Node.BlursTo : Node → Node → Prop
  | mk {i i' : NodeId} {span : Span} {t t' : Ty} {f f' : Form} (ht : t.BlursTo t')
    (hf : f.BlursTo f') : Node.BlursTo (.mk i span t f) (.mk i' span t' f')

/-- A form becomes another one when some types in it are blurred: what is written stays, and the
nodes, the elements and the type of an annotation are blurred. -/
inductive Form.BlursTo : Form → Form → Prop
  | compilationUnit {as bs : List Node} (h : List.Forall₂ Node.BlursTo as bs) :
    Form.BlursTo (.compilationUnit as) (.compilationUnit bs)
  | namedType {name : String} {as bs : List Node} {t t' : Ty}
    (h : List.Forall₂ Node.BlursTo as bs) (ht : t.BlursTo t') :
    Form.BlursTo (.namedType name as t) (.namedType name bs t')
  | classDeclaration {name : String} {as bs : List Node} {e e' : Option Element}
    (h : List.Forall₂ Node.BlursTo as bs) (he : Option.Rel Element.BlursTo e e') :
    Form.BlursTo (.classDeclaration name as e) (.classDeclaration name bs e')
  | blockFunctionBody {a b : Option Node} (h : Option.Rel Node.BlursTo a b) :
    Form.BlursTo (.blockFunctionBody a) (.blockFunctionBody b)
  | expressionFunctionBody {a b : Option Node} (h : Option.Rel Node.BlursTo a b) :
    Form.BlursTo (.expressionFunctionBody a) (.expressionFunctionBody b)
  | methodDeclaration {name : String} {a₁ b₁ a₂ b₂ : Option Node} {e e' : Option Element}
    (h₁ : Option.Rel Node.BlursTo a₁ b₁) (h₂ : Option.Rel Node.BlursTo a₂ b₂)
    (he : Option.Rel Element.BlursTo e e') :
    Form.BlursTo (.methodDeclaration a₁ name a₂ e) (.methodDeclaration b₁ name b₂ e')
  | functionExpression {a b : Option Node} {e e' : Option Element}
    (h : Option.Rel Node.BlursTo a b) (he : Option.Rel Element.BlursTo e e') :
    Form.BlursTo (.functionExpression a e) (.functionExpression b e')
  | functionDeclaration {name : String} {a₁ b₁ a₂ b₂ : Option Node} {e e' : Option Element}
    (h₁ : Option.Rel Node.BlursTo a₁ b₁) (h₂ : Option.Rel Node.BlursTo a₂ b₂)
    (he : Option.Rel Element.BlursTo e e') :
    Form.BlursTo (.functionDeclaration a₁ name a₂ e) (.functionDeclaration b₁ name b₂ e')
  | block {as bs : List Node} (h : List.Forall₂ Node.BlursTo as bs) :
    Form.BlursTo (.block as) (.block bs)
  | returnStatement {a b : Option Node} (h : Option.Rel Node.BlursTo a b) :
    Form.BlursTo (.returnStatement a) (.returnStatement b)
  | expressionStatement {a b : Option Node} (h : Option.Rel Node.BlursTo a b) :
    Form.BlursTo (.expressionStatement a) (.expressionStatement b)
  | variableDeclaration {name : String} {a b : Option Node} {e e' : Option Element}
    (h : Option.Rel Node.BlursTo a b) (he : Option.Rel Element.BlursTo e e') :
    Form.BlursTo (.variableDeclaration name a e) (.variableDeclaration name b e')
  | variableDeclarationList {keyword : Option String} {a b : Option Node} {as bs : List Node}
    (h₁ : Option.Rel Node.BlursTo a b) (h₂ : List.Forall₂ Node.BlursTo as bs) :
    Form.BlursTo (.variableDeclarationList keyword a as) (.variableDeclarationList keyword b bs)
  | variableDeclarationStatement {a b : Option Node} (h : Option.Rel Node.BlursTo a b) :
    Form.BlursTo (.variableDeclarationStatement a) (.variableDeclarationStatement b)
  | topLevelVariableDeclaration {a b : Option Node} (h : Option.Rel Node.BlursTo a b) :
    Form.BlursTo (.topLevelVariableDeclaration a) (.topLevelVariableDeclaration b)
  | fieldDeclaration {a b : Option Node} (h : Option.Rel Node.BlursTo a b) :
    Form.BlursTo (.fieldDeclaration a) (.fieldDeclaration b)
  | simpleIdentifier {name : String} {e e' : Option Element}
    (he : Option.Rel Element.BlursTo e e') :
    Form.BlursTo (.simpleIdentifier name e) (.simpleIdentifier name e')
  | prefixedIdentifier {a₁ b₁ a₂ b₂ : Option Node} (h₁ : Option.Rel Node.BlursTo a₁ b₁)
    (h₂ : Option.Rel Node.BlursTo a₂ b₂) :
    Form.BlursTo (.prefixedIdentifier a₁ a₂) (.prefixedIdentifier b₁ b₂)
  | propertyAccess {a₁ b₁ a₂ b₂ : Option Node} {isCascaded : Bool}
    (h₁ : Option.Rel Node.BlursTo a₁ b₁) (h₂ : Option.Rel Node.BlursTo a₂ b₂) :
    Form.BlursTo (.propertyAccess a₁ a₂ isCascaded) (.propertyAccess b₁ b₂ isCascaded)
  | assignmentExpression {a₁ b₁ a₂ b₂ : Option Node} {operator : String} {e e' : Option Element}
    (h₁ : Option.Rel Node.BlursTo a₁ b₁) (h₂ : Option.Rel Node.BlursTo a₂ b₂)
    (he : Option.Rel Element.BlursTo e e') :
    Form.BlursTo (.assignmentExpression a₁ operator a₂ e) (.assignmentExpression b₁ operator b₂ e')
  | argumentList {as bs : List Node} (h : List.Forall₂ Node.BlursTo as bs) :
    Form.BlursTo (.argumentList as) (.argumentList bs)
  | namedExpression {name : String} {a b : Option Node} (h : Option.Rel Node.BlursTo a b) :
    Form.BlursTo (.namedExpression name a) (.namedExpression name b)
  | methodInvocation {a₁ b₁ a₂ b₂ a₃ b₃ : Option Node} {isCascaded : Bool}
    (h₁ : Option.Rel Node.BlursTo a₁ b₁) (h₂ : Option.Rel Node.BlursTo a₂ b₂)
    (h₃ : Option.Rel Node.BlursTo a₃ b₃) :
    Form.BlursTo (.methodInvocation a₁ a₂ a₃ isCascaded) (.methodInvocation b₁ b₂ b₃ isCascaded)
  | functionExpressionInvocation {a₁ b₁ a₂ b₂ : Option Node} {e e' : Option Element}
    (h₁ : Option.Rel Node.BlursTo a₁ b₁) (h₂ : Option.Rel Node.BlursTo a₂ b₂)
    (he : Option.Rel Element.BlursTo e e') :
    Form.BlursTo (.functionExpressionInvocation a₁ a₂ e) (.functionExpressionInvocation b₁ b₂ e')
  | instanceCreationExpression {keyword : Option String} {a₁ b₁ a₂ b₂ a₃ b₃ : Option Node}
    {e e' : Option Element} (h₁ : Option.Rel Node.BlursTo a₁ b₁)
    (h₂ : Option.Rel Node.BlursTo a₂ b₂) (h₃ : Option.Rel Node.BlursTo a₃ b₃)
    (he : Option.Rel Element.BlursTo e e') :
    Form.BlursTo (.instanceCreationExpression keyword a₁ a₂ a₃ e)
      (.instanceCreationExpression keyword b₁ b₂ b₃ e')
  | listLiteral {keyword : Option String} {ts us : Option (List Node)} {as bs : List Node}
    (h₁ : Option.Rel (List.Forall₂ Node.BlursTo) ts us) (h₂ : List.Forall₂ Node.BlursTo as bs) :
    Form.BlursTo (.listLiteral keyword ts as) (.listLiteral keyword us bs)
  | integerLiteral (lexeme : String) (value : Option Int) :
    Form.BlursTo (.integerLiteral lexeme value) (.integerLiteral lexeme value)
  | doubleLiteral (lexeme : String) :
    Form.BlursTo (.doubleLiteral lexeme) (.doubleLiteral lexeme)
  | stringLiteral (value : String) : Form.BlursTo (.stringLiteral value) (.stringLiteral value)
  | prefixExpression {operator : String} {a b : Option Node} (h : Option.Rel Node.BlursTo a b) :
    Form.BlursTo (.prefixExpression operator a) (.prefixExpression operator b)
  | parenthesizedExpression {a b : Option Node} (h : Option.Rel Node.BlursTo a b) :
    Form.BlursTo (.parenthesizedExpression a) (.parenthesizedExpression b)
  | cascadeExpression {a b : Option Node} {as bs : List Node} (h₁ : Option.Rel Node.BlursTo a b)
    (h₂ : List.Forall₂ Node.BlursTo as bs) :
    Form.BlursTo (.cascadeExpression a as) (.cascadeExpression b bs)
  | binaryExpression {a₁ b₁ a₂ b₂ : Option Node} {operator : String}
    (h₁ : Option.Rel Node.BlursTo a₁ b₁) (h₂ : Option.Rel Node.BlursTo a₂ b₂) :
    Form.BlursTo (.binaryExpression a₁ operator a₂) (.binaryExpression b₁ operator b₂)

end

lemma rel_toList {a b : Option Node} (h : Option.Rel Node.BlursTo a b) :
    List.Forall₂ Node.BlursTo a.toList b.toList := by
  cases h with
  | none => exact .nil
  | some h => exact .cons h .nil

lemma Form.BlursTo.kind_eq {f f' : Form} (h : f.BlursTo f') : f'.kind = f.kind := by
  cases h <;> rfl

lemma Form.BlursTo.children {f f' : Form} (h : f.BlursTo f') :
    List.Forall₂ Node.BlursTo f.children f'.children := by
  cases h with
  | compilationUnit h | namedType h | classDeclaration h | block h | argumentList h => exact h
  | blockFunctionBody h | expressionFunctionBody h | functionExpression h | returnStatement h
  | expressionStatement h | variableDeclaration h | variableDeclarationStatement h
  | topLevelVariableDeclaration h | fieldDeclaration h | namedExpression h | prefixExpression h
  | parenthesizedExpression h => exact rel_toList h
  | methodDeclaration h₁ h₂ | functionDeclaration h₁ h₂ | prefixedIdentifier h₁ h₂
  | propertyAccess h₁ h₂ | assignmentExpression h₁ h₂ | functionExpressionInvocation h₁ h₂
  | binaryExpression h₁ h₂ => exact List.rel_append (rel_toList h₁) (rel_toList h₂)
  | variableDeclarationList h₁ h₂ | cascadeExpression h₁ h₂ =>
    exact List.rel_append (rel_toList h₁) h₂
  | methodInvocation h₁ h₂ h₃ | instanceCreationExpression h₁ h₂ h₃ =>
    exact List.rel_append (List.rel_append (rel_toList h₁) (rel_toList h₂)) (rel_toList h₃)
  | listLiteral h₁ h₂ =>
    cases h₁ with
    | none => exact h₂
    | some h₁ => exact List.rel_append h₁ h₂
  | simpleIdentifier | integerLiteral | doubleLiteral | stringLiteral => exact .nil

namespace Node.BlursTo

variable {n n' : Node}

lemma form (h : n.BlursTo n') : n.form.BlursTo n'.form := by
  cases h with
  | mk ht hf => exact hf

lemma staticType (h : n.BlursTo n') : n.staticType.BlursTo n'.staticType := by
  cases h with
  | mk ht hf => exact ht

lemma span_eq (h : n.BlursTo n') : n'.span = n.span := by
  cases h with
  | mk ht hf => rfl

lemma kind_eq (h : n.BlursTo n') : n'.kind = n.kind := h.form.kind_eq

lemma isExpression_eq (h : n.BlursTo n') : n'.isExpression = n.isExpression := by
  rw [isExpression, isExpression, h.kind_eq]

lemma children (h : n.BlursTo n') : List.Forall₂ Node.BlursTo n.children n'.children :=
  h.form.children

end Node.BlursTo

/-! ### Answers that correspond -/

/-- Two questions are answered in the same way, up to a relation: both fail with the same fault, or
the answers are related. -/
inductive Agree {α β : Type} (R : α → β → Prop) : Except Fault α → Except Fault β → Prop
  /-- Both are answered. -/
  | ok {a : α} {b : β} (h : R a b) : Agree R (.ok a) (.ok b)
  /-- Both fail. -/
  | error (f : Fault) : Agree R (.error f) (.error f)

namespace Agree

variable {α β γ δ : Type} {R : α → β → Prop} {S : γ → δ → Prop} {x : Except Fault α}
  {y : Except Fault β}

lemma bind {f : α → Except Fault γ} {g : β → Except Fault δ} (h : Agree R x y)
    (hfg : ∀ a b, R a b → Agree S (f a) (g b)) : Agree S (x.bind f) (y.bind g) := by
  cases h with
  | ok h => exact hfg _ _ h
  | error f => exact .error f

lemma map {f : α → γ} {g : β → δ} (h : Agree R x y) (hfg : ∀ a b, R a b → S (f a) (g b)) :
    Agree S (x.map f) (y.map g) := by
  cases h with
  | ok h => exact .ok (hfg _ _ h)
  | error f => exact .error f

lemma flip (h : Agree R x y) : Agree (fun b a => R a b) y x := by
  cases h with
  | ok h => exact .ok h
  | error f => exact .error f

end Agree

/-! ### What the resolver tells -/

namespace Node.BlursTo

variable {n n' : Node}

lemma name (h : n.BlursTo n') : Agree (· = ·) n.name n'.name := by
  have hname : n'.name? = n.name? := by
    have hform := h.form
    rw [name?, name?]
    generalize n.form = f, n'.form = f' at hform
    cases hform <;> rfl
  rw [Node.name, Node.name, hname, h.kind_eq]
  cases n.name? with
  | none => exact .error _
  | some name => exact .ok rfl

lemma referent (h : n.BlursTo n') :
    Agree (Option.Rel Element.BlursTo) n.referent n'.referent := by
  have hkind := h.kind_eq
  have hform := h.form
  rw [Node.referent, Node.referent, hkind]
  generalize n.form = f, n'.form = f' at hform
  cases hform with
  | simpleIdentifier he => exact .ok he
  | _ => exact .error _

lemma identifierElement? (h : n.BlursTo n') :
    Option.Rel Element.BlursTo n.identifierElement? n'.identifierElement? := by
  have hform := h.form
  rw [Node.identifierElement?, Node.identifierElement?]
  generalize n.form = f, n'.form = f' at hform
  cases hform with
  | simpleIdentifier he => exact he
  | _ => exact .none

/-- Parentheses stand at the same places. -/
lemma encloses_or (h : n.BlursTo n') :
    (∃ e e', n.Encloses e ∧ n'.Encloses e' ∧ e.BlursTo e') ∨
      ((∀ e, ¬ n.Encloses e) ∧ ∀ e', ¬ n'.Encloses e') := by
  have hform := h.form
  simp only [Encloses]
  generalize n.form = f, n'.form = f' at hform
  cases hform with
  | parenthesizedExpression h =>
    cases h with
    | none => exact .inr (by simp)
    | some h => exact .inl ⟨_, _, rfl, rfl, h⟩
  | _ => exact .inr (by simp)

lemma unparenthesized (h : n.BlursTo n') : n.unparenthesized.BlursTo n'.unparenthesized := by
  induction n using Node.induction generalizing n' with
  | step n ih =>
    rcases h.encloses_or with ⟨e, e', he, he', hee'⟩ | ⟨hbare, hbare'⟩
    · rw [he.unparenthesized_eq, he'.unparenthesized_eq]
      exact ih e he.mem_children hee'
    · rwa [unparenthesized_of_not_encloses hbare, unparenthesized_of_not_encloses hbare']

/-- The type that the resolver knows of an expression is blurred.  An expression without a type of
its own has none in the second tree either, unless that is dynamic. -/
lemma resolvedType (h : n.BlursTo n') : Agree Ty.BlursTo n.resolvedType n'.resolvedType := by
  have hinner := h.unparenthesized
  have htype := hinner.staticType
  have helement := hinner.identifierElement?
  simp only [Node.resolvedType, h.isExpression_eq, hinner.isExpression_eq, hinner.kind_eq]
  cases n.isExpression with
  | false => exact .ok (.refl _)
  | true =>
    cases n.unparenthesized.isExpression with
    | false => exact .error _
    | true =>
      simp only [if_true]
      generalize n.unparenthesized.staticType = t, n'.unparenthesized.staticType = t' at htype
      cases htype with
      | dynamic => cases t <;> exact .ok (.dynamic _)
      | interface cls harguments => exact .ok (.interface cls harguments)
      | refl =>
        cases t with
        | unresolved => exact .ok (.getD (fun _ _ he => he.type) helement)
        | _ => exact .ok (.refl _)

/-- A call resolves to the same executable. -/
lemma invoked? (h : n.BlursTo n') :
    Agree (Option.Rel Executable.BlursTo) n.invoked? n'.invoked? := by
  have hbind : ∀ {e e' : Option Element}, Option.Rel Element.BlursTo e e' →
      Option.Rel Executable.BlursTo (e.bind Element.executable?) (e'.bind Element.executable?) := by
    intro e e' he
    cases he with
    | none => exact .none
    | some he => exact he.executable?
  have hform := h.form
  rw [Node.invoked?, Node.invoked?]
  generalize n.form = f, n'.form = f' at hform
  cases hform with
  | methodInvocation h₁ h₂ h₃ =>
    cases h₂ with
    | none => exact .ok .none
    | some hmethod => exact hmethod.referent.map fun _ _ => hbind
  | functionExpressionInvocation h₁ h₂ he => exact .ok (hbind he)
  | instanceCreationExpression h₁ h₂ h₃ he => exact .ok (hbind he)
  | _ => exact .ok .none

end Node.BlursTo

lemma rel_resolvedTypeOf {r r' : Option Node} (h : Option.Rel Node.BlursTo r r') :
    Agree Ty.BlursTo (resolvedTypeOf r) (resolvedTypeOf r') := by
  cases h with
  | none => exact .ok (.refl _)
  | some h => exact h.resolvedType

/-! ### What annotations give -/

namespace Annotation

/-- What an annotation gives becomes something else: a type is blurred, or nothing is known about
it any more. -/
inductive BlursTo : Annotation → Annotation → Prop
  /-- Nothing is known about the type any more. -/
  | vague {t t' : Ty} (ht : t'.isVague = true) : BlursTo (.type t) (.type t')
  /-- The type is blurred. -/
  | type {t t' : Ty} (ht : t.BlursTo t') : BlursTo (.type t) (.type t')
  /-- A node in the place of a type is blurred. -/
  | node {n n' : Node} (hn : n.BlursTo n') : BlursTo (.node n) (.node n')

lemma BlursTo.unresolved : BlursTo (.type .unresolved) (.type .unresolved) := .type (.refl _)

lemma rel_ofNode {n n' : Node} (hn : n.BlursTo n') : Agree BlursTo (ofNode n) (ofNode n') := by
  have hform := hn.form
  rw [ofNode, ofNode, hn.kind_eq]
  generalize n.form = f, n'.form = f' at hform
  cases hform with
  | namedType harguments ht => exact .ok (.type ht)
  | variableDeclarationList htype hdeclared =>
    cases htype with
    | none => exact .ok .unresolved
    | some hwritten => exact .ok (.node hwritten)
  | _ => exact .error _

lemma rel_ofNode? {written written' : Option Node} (h : Option.Rel Node.BlursTo written written') :
    Agree BlursTo (ofNode? written) (ofNode? written') := by
  cases h with
  | none => exact .ok .unresolved
  | some hn => exact rel_ofNode hn

lemma rel_soleOf {as bs : List Node} (h : List.Forall₂ Node.BlursTo as bs) :
    (soleOf as).BlursTo (soleOf bs) := by
  cases h with
  | nil => exact .unresolved
  | cons hfirst hrest =>
    cases hrest with
    | nil => exact .node hfirst
    | cons => exact .unresolved

lemma rel_soleArgument {a a' : Annotation} (h : a.BlursTo a') :
    Agree BlursTo a.soleArgument a'.soleArgument := by
  cases h with
  | @vague t t' ht =>
    refine .ok (.vague ?_)
    cases t' with
    | interface cls arguments => cases ht
    | _ => rfl
  | type ht =>
    rcases ht.soleArgument with hnone | hsole
    · exact .ok (.vague (by rw [hnone]; rfl))
    · exact .ok (.type hsole)
  | @node n n' hn =>
    have hform := hn.form
    rw [soleArgument, soleArgument]
    generalize n.form = f, n'.form = f' at hform
    cases hform with
    | namedType harguments => exact .ok (rel_soleOf harguments)
    | listLiteral htypes =>
      cases htypes with
      | none => exact .error _
      | some harguments => exact .ok (rel_soleOf harguments)
    | _ => exact .ok .unresolved

end Annotation

namespace Site

lemma rel_cascadeTarget? {above above' : List Node} (h : List.Forall₂ Node.BlursTo above above') :
    Option.Rel Node.BlursTo (cascadeTarget? above) (cascadeTarget? above') := by
  induction h with
  | nil => exact .none
  | @cons n n' rest rest' hn hrest ih =>
    have hform := hn.form
    rw [cascadeTarget?, cascadeTarget?]
    generalize n.form = f, n'.form = f' at hform
    cases hform with
    | cascadeExpression h₁ h₂ => exact h₁
    | _ => exact ih

end Site

/-! ### Twins -/

namespace Node

/-- Two nodes stand in the same place of two trees, the second below what stands above the first:
both are the root, or children of twins at the same place. -/
inductive Twins (root root' : Node) : Node → List Node → Node → List Node → Prop
  /-- The roots are twins. -/
  | root : Twins root root' root [] root' []
  /-- The children of twins are twins, in their order. -/
  | child {n n' c c' : Node} {above above' : List Node} (hn : Twins root root' n above n' above')
    (hc : (c, c') ∈ n.children.zip n'.children) :
    Twins root root' c (n :: above) c' (n' :: above')

namespace Twins

variable {root root' n n' : Node} {above above' : List Node} {links links' : Links}

lemma isPath (h : Twins root root' n above n' above') : root.IsPath n above := by
  induction h with
  | root => exact .root
  | child hn hc ih => exact ih.child (List.of_mem_zip hc).1

lemma isPath' (h : Twins root root' n above n' above') : root'.IsPath n' above' := by
  induction h with
  | root => exact .root
  | child hn hc ih => exact ih.child (List.of_mem_zip hc).2

lemma blursTo (h : Twins root root' n above n' above') (hroot : root.BlursTo root') :
    n.BlursTo n' := by
  induction h with
  | root => exact hroot
  | child hn hc ih => exact List.forall₂_zip ih.children hc

lemma rel_above (h : Twins root root' n above n' above') (hroot : root.BlursTo root') :
    List.Forall₂ Node.BlursTo above above' := by
  induction h with
  | root => exact .nil
  | child hn hc ih => exact .cons (hn.blursTo hroot) ih

lemma site_eq (h : Twins root root' n above n' above') (hlinked : links.IsLinked root) :
    links.site n = ⟨n, above⟩ := by
  rw [Links.site, hlinked.ancestors_eq h.isPath]

lemma site_eq' (h : Twins root root' n above n' above') (hlinked : links'.IsLinked root') :
    links'.site n' = ⟨n', above'⟩ := by
  rw [Links.site, hlinked.ancestors_eq h.isPath']

/-- Inside of their parentheses twins hold twins. -/
lemma unparenthesized (h : Twins root root' n above n' above') (hroot : root.BlursTo root') :
    ∃ below below', Twins root root' n.unparenthesized below n'.unparenthesized below' := by
  induction n using Node.induction generalizing n' above above' with
  | step n ih =>
    rcases (h.blursTo hroot).encloses_or with ⟨e, e', he, he', -⟩ | ⟨hbare, hbare'⟩
    · have hzip : (e, e') ∈ n.children.zip n'.children := by
        rw [Node.children, Node.children, show n.form = _ from he, show n'.form = _ from he']
        exact List.mem_singleton.2 rfl
      rw [he.unparenthesized_eq, he'.unparenthesized_eq]
      exact ih e he.mem_children (h.child hzip)
    · rw [unparenthesized_of_not_encloses hbare, unparenthesized_of_not_encloses hbare']
      exact ⟨above, above', h⟩

/-- What is in and below twins, in the order of the trees, are twins. -/
lemma rel_preorder (h : Twins root root' n above n' above') (hroot : root.BlursTo root') :
    List.Forall₂ (fun m m' => ∃ above above', Twins root root' m above m' above')
      n.preorder n'.preorder := by
  induction n using Node.induction generalizing n' above above' with
  | step n ih =>
    have hchildren : List.Forall₂ (fun c c' => (c, c') ∈ n.children.zip n'.children) n.children
        n'.children :=
      List.forall₂_iff_zip.2 ⟨(h.blursTo hroot).children.length_eq, fun hc => hc⟩
    rw [preorder_eq_cons, preorder_eq_cons]
    refine .cons ⟨above, above', h⟩ (List.rel_flatMap hchildren ?_)
    exact fun c c' hc => ih c (List.of_mem_zip hc).1 (h.child hc)

end Twins

/-- Arguments at the same place have the same place among those without a name. -/
lemma positionIn?_eq_of_mem_zip {as bs : List Node} (h : List.Forall₂ Node.BlursTo as bs)
    (hdistinct : (as.map id).Nodup) (hdistinct' : (bs.map id).Nodup) {a b : Node}
    (hab : (a, b) ∈ as.zip bs) : positionIn? b.id bs = positionIn? a.id as := by
  induction h with
  | nil => cases hab
  | @cons c d as bs hcd hrest ih =>
    rw [List.map_cons, List.nodup_cons] at hdistinct hdistinct'
    rw [List.zip_cons_cons, List.mem_cons] at hab
    rw [positionIn?, positionIn?]
    rcases hab with heq | hab
    · cases heq
      rw [if_pos rfl, if_pos rfl]
    · obtain ⟨ha, hb⟩ := List.of_mem_zip hab
      have hne : c.id ≠ a.id := fun heq => hdistinct.1 (heq ▸ List.mem_map_of_mem ha)
      have hne' : d.id ≠ b.id := fun heq => hdistinct'.1 (heq ▸ List.mem_map_of_mem hb)
      rw [if_neg hne, if_neg hne', ih hdistinct.2 hdistinct'.2 hab, isNamedArgument,
        isNamedArgument, hcd.kind_eq]

/-- Arguments at the same place are bound to the same parameter. -/
lemma rel_bind? {e e' : Executable} (he : e.BlursTo e') {as bs : List Node}
    (h : List.Forall₂ Node.BlursTo as bs) (hdistinct : (as.map id).Nodup)
    (hdistinct' : (bs.map id).Nodup) {a b : Node} (hab : (a, b) ∈ as.zip bs) :
    Option.Rel Parameter.BlursTo (Site.bind? e as a) (Site.bind? e' bs b) := by
  have hform := (List.forall₂_zip h hab).form
  rw [Site.bind?, Site.bind?, positionIn?_eq_of_mem_zip h hdistinct hdistinct' hab]
  have hpositional : Option.Rel Parameter.BlursTo
      ((positionIn? a.id as).bind (fun k => e.positional[k]?))
      ((positionIn? a.id as).bind (fun k => e'.positional[k]?)) := by
    cases positionIn? a.id as with
    | none => exact .none
    | some k => exact rel_getElem? he.positional k
  generalize a.form = f, b.form = f' at hform
  cases hform with
  | namedExpression => exact he.named? _
  | _ => exact hpositional

namespace Twins

variable {root root' n n' : Node} {above above' : List Node}

/-- Twins are bound to the same parameter, if they are arguments. -/
lemma parameter? (h : Twins root root' n above n' above') (hroot : root.BlursTo root')
    (hdistinct : (root.preorder.map Node.id).Nodup)
    (hdistinct' : (root'.preorder.map Node.id).Nodup) :
    Agree (Option.Rel Parameter.BlursTo) (Site.parameter? ⟨n, above⟩)
      (Site.parameter? ⟨n', above'⟩) := by
  cases h with
  | root => exact .ok .none
  | @child list list' _ _ above above' hlist hn =>
    cases hlist with
    | root => exact .ok .none
    | @child call call' _ _ above above' hcall hlist =>
      have hmem := (hcall.child hlist).isPath.subset_preorder List.mem_cons_self
      have hmem' := (hcall.child hlist).isPath'.subset_preorder List.mem_cons_self
      have hnodup := nodup_children hdistinct hmem
      have hnodup' := nodup_children hdistinct' hmem'
      have hform := ((hcall.child hlist).blursTo hroot).form
      simp only [Site.parameter?]
      rw [Node.children] at hnodup hnodup'
      rw [Node.children, Node.children] at hn
      generalize list.form = f, list'.form = f' at hform hn hnodup hnodup'
      cases hform with
      | argumentList harguments =>
        refine (hcall.blursTo hroot).invoked?.map fun e e' he => ?_
        cases he with
        | none => exact .none
        | some he => exact rel_bind? he harguments hnodup hnodup' hn
      | _ => exact .ok .none

/-- **Parameters.**  The parameters that twins are bound to have the same type, blurred. -/
lemma parameterType (h : Twins root root' n above n' above') (hroot : root.BlursTo root')
    (hdistinct : (root.preorder.map Node.id).Nodup)
    (hdistinct' : (root'.preorder.map Node.id).Nodup) :
    Agree Ty.BlursTo (Site.parameterType ⟨n, above⟩) (Site.parameterType ⟨n', above'⟩) := by
  exact (h.parameter? hroot hdistinct hdistinct').map fun p p' hp =>
    .getD (fun _ _ hparameter => hparameter.type) hp

end Twins

end Node

end TreeLint
