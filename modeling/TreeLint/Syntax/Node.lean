/-
Syntax nodes.

A node has an identity, a span of the text, a static type if it is an expression,
and a form: what it consists of.  The forms list their parts in the order in
which they stand in the source; the parts that are nodes are the children.  A
part that may be missing is an option, and in well-formed programs each part has
the kind that its name tells.

Nodes are handled through `Node.children`: a child is smaller than its parent, so
recursion over the children ends, and `Node.induction` proves what holds for all
nodes.  `Node.preorder` lists a node and all nodes below it.
-/
import TreeLint.Model.Element
import TreeLint.Syntax.Kind
namespace TreeLint

/-- The identity of a node. -/
abbrev NodeId := Nat

/-- A part of the text, from its first offset to the one after its last. -/
structure Span where
  /-- The first offset. -/
  start : Int
  /-- The offset after the last one. -/
  stop : Int
deriving DecidableEq, Repr, Inhabited

mutual

/-- A syntax node. -/
inductive Node where
  /-- The node with an identity, a span, a static type and a form. -/
  | mk (id : NodeId) (span : Span) (staticType : Ty) (form : Form)

/-- What a node consists of. -/
inductive Form where
  /-- A file. -/
  | compilationUnit (declarations : List Node)
  /-- A type annotation. -/
  | namedType (name : String) (typeArguments : List Node) (type : Ty)
  /-- The declaration of a class. -/
  | classDeclaration (name : String) (members : List Node) (element : Option Element)
  /-- A body that is a block. -/
  | blockFunctionBody (block : Option Node)
  /-- A body that is an expression. -/
  | expressionFunctionBody (expression : Option Node)
  /-- The declaration of a method. -/
  | methodDeclaration (returnType : Option Node) (name : String) (body : Option Node)
      (element : Option Element)
  /-- A function without a name. -/
  | functionExpression (body : Option Node) (element : Option Element)
  /-- The declaration of a function. -/
  | functionDeclaration (returnType : Option Node) (name : String) (function : Option Node)
      (element : Option Element)
  /-- Statements in braces. -/
  | block (statements : List Node)
  /-- A return, with the value returned. -/
  | returnStatement (expression : Option Node)
  /-- An expression as a statement. -/
  | expressionStatement (expression : Option Node)
  /-- One variable and its initial value. -/
  | variableDeclaration (name : String) (initializer : Option Node) (element : Option Element)
  /-- A keyword, an annotation and the variables declared with them. -/
  | variableDeclarationList (keyword : Option String) (type : Option Node) (declared : List Node)
  /-- Variables declared by a statement. -/
  | variableDeclarationStatement (declared : Option Node)
  /-- Variables declared by a file. -/
  | topLevelVariableDeclaration (declared : Option Node)
  /-- Variables declared by a class. -/
  | fieldDeclaration (declared : Option Node)
  /-- A name. -/
  | simpleIdentifier (name : String) (element : Option Element)
  /-- Two names with a dot between them. -/
  | prefixedIdentifier (qualifier : Option Node) (identifier : Option Node)
  /-- A property of a target; a section of a cascade has no target of its own. -/
  | propertyAccess (target : Option Node) (property : Option Node) (isCascaded : Bool)
  /-- An assignment, with the element it writes to. -/
  | assignmentExpression (leftHandSide : Option Node) (operator : String)
      (rightHandSide : Option Node) (writeElement : Option Element)
  /-- The arguments of a call. -/
  | argumentList (arguments : List Node)
  /-- An argument passed by name. -/
  | namedExpression (name : String) (expression : Option Node)
  /-- A call of a method; a section of a cascade has no target of its own. -/
  | methodInvocation (target : Option Node) (method : Option Node) (argumentList : Option Node)
      (isCascaded : Bool)
  /-- A call of a function value. -/
  | functionExpressionInvocation (function : Option Node) (argumentList : Option Node)
      (element : Option Element)
  /-- A call of a constructor. -/
  | instanceCreationExpression (keyword : Option String) (type : Option Node)
      (constructor : Option Node) (argumentList : Option Node) (element : Option Element)
  /-- A list, with its type arguments if they are written. -/
  | listLiteral (constKeyword : Option String) (typeArguments : Option (List Node))
      (elements : List Node)
  /-- An integer; the value is missing if it could not be represented. -/
  | integerLiteral (lexeme : String) (value : Option Int)
  /-- A floating-point number. -/
  | doubleLiteral (lexeme : String)
  /-- A text. -/
  | stringLiteral (value : String)
  /-- An operator before its operand. -/
  | prefixExpression (operator : String) (operand : Option Node)
  /-- An expression in parentheses. -/
  | parenthesizedExpression (expression : Option Node)
  /-- A target and the sections that all apply to it. -/
  | cascadeExpression (target : Option Node) (sections : List Node)
  /-- An operator between its operands. -/
  | binaryExpression (left : Option Node) (operator : String) (right : Option Node)

end

namespace Form

/-- The kind of the nodes of a form. -/
def kind : Form → NodeKind
  | .compilationUnit .. => .compilationUnit
  | .namedType .. => .namedType
  | .classDeclaration .. => .classDeclaration
  | .blockFunctionBody .. => .blockFunctionBody
  | .expressionFunctionBody .. => .expressionFunctionBody
  | .methodDeclaration .. => .methodDeclaration
  | .functionExpression .. => .functionExpression
  | .functionDeclaration .. => .functionDeclaration
  | .block .. => .block
  | .returnStatement .. => .returnStatement
  | .expressionStatement .. => .expressionStatement
  | .variableDeclaration .. => .variableDeclaration
  | .variableDeclarationList .. => .variableDeclarationList
  | .variableDeclarationStatement .. => .variableDeclarationStatement
  | .topLevelVariableDeclaration .. => .topLevelVariableDeclaration
  | .fieldDeclaration .. => .fieldDeclaration
  | .simpleIdentifier .. => .simpleIdentifier
  | .prefixedIdentifier .. => .prefixedIdentifier
  | .propertyAccess .. => .propertyAccess
  | .assignmentExpression .. => .assignmentExpression
  | .argumentList .. => .argumentList
  | .namedExpression .. => .namedExpression
  | .methodInvocation .. => .methodInvocation
  | .functionExpressionInvocation .. => .functionExpressionInvocation
  | .instanceCreationExpression .. => .instanceCreationExpression
  | .listLiteral .. => .listLiteral
  | .integerLiteral .. => .integerLiteral
  | .doubleLiteral .. => .doubleLiteral
  | .stringLiteral .. => .stringLiteral
  | .prefixExpression .. => .prefixExpression
  | .parenthesizedExpression .. => .parenthesizedExpression
  | .cascadeExpression .. => .cascadeExpression
  | .binaryExpression .. => .binaryExpression

/-- The nodes among the parts of a form, in the order of the source. -/
def children : Form → List Node
  | .compilationUnit a => a
  | .namedType _ a _ => a
  | .classDeclaration _ a _ => a
  | .blockFunctionBody a => a.toList
  | .expressionFunctionBody a => a.toList
  | .methodDeclaration a _ b _ => a.toList ++ b.toList
  | .functionExpression a _ => a.toList
  | .functionDeclaration a _ b _ => a.toList ++ b.toList
  | .block a => a
  | .returnStatement a => a.toList
  | .expressionStatement a => a.toList
  | .variableDeclaration _ a _ => a.toList
  | .variableDeclarationList _ a b => a.toList ++ b
  | .variableDeclarationStatement a => a.toList
  | .topLevelVariableDeclaration a => a.toList
  | .fieldDeclaration a => a.toList
  | .simpleIdentifier .. => []
  | .prefixedIdentifier a b => a.toList ++ b.toList
  | .propertyAccess a b _ => a.toList ++ b.toList
  | .assignmentExpression a _ b _ => a.toList ++ b.toList
  | .argumentList a => a
  | .namedExpression _ a => a.toList
  | .methodInvocation a b c _ => a.toList ++ b.toList ++ c.toList
  | .functionExpressionInvocation a b _ => a.toList ++ b.toList
  | .instanceCreationExpression _ a b c _ => a.toList ++ b.toList ++ c.toList
  | .listLiteral _ a b => a.getD [] ++ b
  | .integerLiteral .. => []
  | .doubleLiteral .. => []
  | .stringLiteral .. => []
  | .prefixExpression _ a => a.toList
  | .parenthesizedExpression a => a.toList
  | .cascadeExpression a b => a.toList ++ b
  | .binaryExpression a _ b => a.toList ++ b.toList

end Form

namespace Node

/-- The identity of a node. -/
def id : Node → NodeId
  | .mk id _ _ _ => id

/-- The part of the text that a node covers. -/
def span : Node → Span
  | .mk _ span _ _ => span

/-- The static type of a node, unresolved unless it is an expression. -/
def staticType : Node → Ty
  | .mk _ _ staticType _ => staticType

/-- What a node consists of. -/
def form : Node → Form
  | .mk _ _ _ form => form

/-- The kind of a node. -/
def kind (n : Node) : NodeKind := n.form.kind

/-- The children of a node, in the order of the source. -/
def children (n : Node) : List Node := n.form.children

/-- Whether a node is an expression. -/
def isExpression (n : Node) : Bool := n.kind.isExpression

/-- A node in messages: its kind and its span. -/
def describe (n : Node) : String :=
  let kind := n.kind.name
  let start := n.span.start
  let stop := n.span.stop
  s!"{kind}@{start}..{stop}"

theorem sizeOf_lt_of_mem_toList {o : Option Node} {c : Node} (h : c ∈ o.toList) :
    sizeOf c < sizeOf o := by
  cases o with
  | none => simp at h
  | some d =>
    simp only [Option.toList_some, List.mem_singleton] at h
    subst h
    simp

theorem sizeOf_lt_of_mem_getD {o : Option (List Node)} {c : Node} (h : c ∈ o.getD []) :
    sizeOf c < sizeOf o := by
  cases o with
  | none => simp at h
  | some l =>
    have := List.sizeOf_lt_of_mem h
    simp only [Option.getD_some] at this
    simp only [Option.some.sizeOf_spec]
    omega

theorem sizeOf_lt_of_mem_formChildren {f : Form} {c : Node} (h : c ∈ f.children) :
    sizeOf c < sizeOf f := by
  cases f <;> simp only [Form.children] at h <;>
    grind [→ sizeOf_lt_of_mem_toList, → sizeOf_lt_of_mem_getD, → List.sizeOf_lt_of_mem]

/-- A child is smaller than its parent. -/
theorem sizeOf_lt_of_mem_children {n c : Node} (h : c ∈ n.children) : sizeOf c < sizeOf n := by
  cases n with
  | mk id span staticType form =>
    have := sizeOf_lt_of_mem_formChildren (f := form) h
    simp only [Node.mk.sizeOf_spec]
    omega

/-- What holds for a node whenever it holds for its children holds for all nodes. -/
theorem induction {P : Node → Prop} (step : ∀ n, (∀ c ∈ n.children, P c) → P n) (n : Node) :
    P n :=
  step n (fun c hc =>
    have := sizeOf_lt_of_mem_children hc
    induction step c)
termination_by sizeOf n

/-- A node and the nodes below it: each before its children, the children in the order of the
source. -/
def preorder (n : Node) : List Node :=
  n :: n.children.attach.flatMap (fun c =>
    have := sizeOf_lt_of_mem_children c.2
    preorder c.1)
termination_by sizeOf n

theorem preorder_eq (n : Node) : n.preorder = n :: n.children.flatMap preorder := by
  rw [preorder]
  congr 1
  simp [List.flatMap]

/-- The number of nodes from a node downwards. -/
def size (n : Node) : Nat := n.preorder.length

end Node

end TreeLint
