/-
Trees whose places hold nodes of the kinds meant for them.

Each part of a form that is a node is meant to be of a kind: an annotation is a named
type, the operand of an operator is an expression, and so on.  The parts that may be
nodes of any kind are declarations, members, statements and the bodies of functions.
On a tree whose parts are of these kinds no question that the resolver answers is a
fault: an annotation names a type and a name has an element.
-/
import Mathlib.Tactic.Common
import TreeLint.Syntax.Resolution
namespace TreeLint

/-- Whether every part of a form that is a node is of the kind meant for it. -/
def Form.HasDeclaredKinds : Form → Prop
  | .namedType _ arguments _ => ∀ n ∈ arguments, n.kind = .namedType
  | .blockFunctionBody statements => ∀ n ∈ statements, n.kind = .block
  | .methodDeclaration returnType _ _ _ => ∀ n ∈ returnType, n.kind = .namedType
  | .functionDeclaration returnType _ function _ =>
    (∀ n ∈ returnType, n.kind = .namedType) ∧ ∀ n ∈ function, n.kind = .functionExpression
  | .expressionFunctionBody expression | .returnStatement expression
  | .expressionStatement expression | .variableDeclaration _ expression _
  | .namedExpression _ expression | .prefixExpression _ expression
  | .parenthesizedExpression expression => ∀ n ∈ expression, n.isExpression = true
  | .variableDeclarationList _ type declared =>
    (∀ n ∈ type, n.kind = .namedType) ∧ ∀ n ∈ declared, n.kind = .variableDeclaration
  | .variableDeclarationStatement declared | .topLevelVariableDeclaration declared
  | .fieldDeclaration declared => ∀ n ∈ declared, n.kind = .variableDeclarationList
  | .prefixedIdentifier qualifier identifier =>
    (∀ n ∈ qualifier, n.kind = .simpleIdentifier) ∧ ∀ n ∈ identifier, n.kind = .simpleIdentifier
  | .propertyAccess target property _ =>
    (∀ n ∈ target, n.isExpression = true) ∧ ∀ n ∈ property, n.kind = .simpleIdentifier
  | .assignmentExpression left _ right _ | .binaryExpression left _ right =>
    (∀ n ∈ left, n.isExpression = true) ∧ ∀ n ∈ right, n.isExpression = true
  | .argumentList arguments => ∀ n ∈ arguments, n.isExpression = true
  | .methodInvocation target method arguments _ =>
    (∀ n ∈ target, n.isExpression = true) ∧ (∀ n ∈ method, n.kind = .simpleIdentifier) ∧
      ∀ n ∈ arguments, n.kind = .argumentList
  | .functionExpressionInvocation function arguments _ =>
    (∀ n ∈ function, n.isExpression = true) ∧ ∀ n ∈ arguments, n.kind = .argumentList
  | .instanceCreationExpression _ type constructor arguments _ =>
    (∀ n ∈ type, n.kind = .namedType) ∧ (∀ n ∈ constructor, n.kind = .simpleIdentifier) ∧
      ∀ n ∈ arguments, n.kind = .argumentList
  | .listLiteral _ typeArguments elements =>
    (∀ n ∈ typeArguments.getD [], n.kind = .namedType) ∧ ∀ n ∈ elements, n.isExpression = true
  | .cascadeExpression target sections =>
    (∀ n ∈ target, n.isExpression = true) ∧ ∀ n ∈ sections, n.isExpression = true
  | .compilationUnit _ | .classDeclaration .. | .functionExpression .. | .block _
  | .simpleIdentifier .. | .integerLiteral .. | .doubleLiteral _ | .stringLiteral _ => True

namespace Node

/-- Whether all parts of a node and of the nodes below it are of the kinds meant for them. -/
def IsWellKinded (root : Node) : Prop := ∀ n ∈ root.preorder, n.form.HasDeclaredKinds

/-- The type that an annotation names; without an annotation it is unresolved. -/
def annotated : Option Node → Ty
  | some (.mk _ _ _ (.namedType _ _ type)) => type
  | _ => .unresolved

/-- The executable that the form of a call resolves to. -/
def callee? : Form → Option Executable
  | .methodInvocation _ method _ _ => (method.bind identifierElement?).bind Element.executable?
  | .functionExpressionInvocation _ _ element => element.bind Element.executable?
  | .instanceCreationExpression _ _ _ _ element => element.bind Element.executable?
  | _ => none

variable {n : Node}

lemma form_eq_namedType (h : n.kind = .namedType) :
    ∃ name arguments type, n.form = .namedType name arguments type := by
  obtain ⟨id, span, staticType, form⟩ := n
  cases form <;> first | exact ⟨_, _, _, rfl⟩ | cases h

lemma form_eq_simpleIdentifier (h : n.kind = .simpleIdentifier) :
    ∃ name element, n.form = .simpleIdentifier name element := by
  obtain ⟨id, span, staticType, form⟩ := n
  cases form <;> first | exact ⟨_, _, rfl⟩ | cases h

lemma form_eq_namedExpression (h : n.kind = .namedExpression) :
    ∃ name expression, n.form = .namedExpression name expression := by
  obtain ⟨id, span, staticType, form⟩ := n
  cases form <;> first | exact ⟨_, _, rfl⟩ | cases h

lemma form_eq_integerLiteral (h : n.kind = .integerLiteral) :
    ∃ lexeme value, n.form = .integerLiteral lexeme value := by
  obtain ⟨id, span, staticType, form⟩ := n
  cases form <;> first | exact ⟨_, _, rfl⟩ | cases h

/-- A call of well-kinded parts resolves without a fault. -/
lemma invoked?_eq (h : n.form.HasDeclaredKinds) : n.invoked? = .ok (callee? n.form) := by
  obtain ⟨id, span, staticType, form⟩ := n
  cases form with
  | methodInvocation target method arguments isCascaded =>
    cases method with
    | none => rfl
    | some method =>
      obtain ⟨name, element, hform⟩ := form_eq_simpleIdentifier (h.2.1 method rfl)
      obtain ⟨id, span, staticType, form⟩ := method
      cases hform
      rfl
  | _ => rfl

end Node

/-- An annotation that is a named type gives the type it names. -/
lemma Annotation.ofNode?_eq {written : Option Node}
    (h : ∀ n ∈ written, n.kind = .namedType) :
    ofNode? written = .ok (.type (Node.annotated written)) := by
  cases written with
  | none => rfl
  | some n =>
    obtain ⟨name, arguments, type, hform⟩ := Node.form_eq_namedType (h n rfl)
    obtain ⟨id, span, staticType, form⟩ := n
    cases hform
    rfl

end TreeLint
