/-
What the resolver tells about the nodes of a tree.

The static type of an expression, the type that an annotation names, the
executable that a call resolves to, and the parameter that an argument is bound
to: a named argument is bound to the first named parameter of its name, and any
other argument to the positional parameter that has its place among the arguments
without a name.

A tree may hold a node of any kind in any place.  A question about a part that
the node in a place does not have is a fault; on a tree whose places hold nodes of
the kinds meant for them no question here fails.
-/
import TreeLint.Syntax.Tree
namespace TreeLint

namespace Node

/-- The expression inside all parentheses around it. -/
def unparenthesized : Node → Node
  | .mk _ _ _ (.parenthesizedExpression (some e)) => e.unparenthesized
  | n => n

/-- Whether a node is an argument passed by name. -/
def isNamedArgument (n : Node) : Bool := n.kind == .namedExpression

/-- The name of a node that has one. -/
def name? (n : Node) : Option String :=
  match n.form with
  | .simpleIdentifier name _ | .namedExpression name _ | .namedType name _ _
  | .variableDeclaration name _ _ | .classDeclaration name _ _
  | .functionDeclaration _ name _ _ | .methodDeclaration _ name _ _ => some name
  | _ => none

/-- The name of a node, which has to have one. -/
def name (n : Node) : Except Fault String :=
  match n.name? with
  | some name => .ok name
  | none => .error (.noMember n.kind.className "name")

/-- The element that a node refers to, if it is an identifier that is resolved. -/
def identifierElement? (n : Node) : Option Element :=
  match n.form with
  | .simpleIdentifier _ element => element
  | _ => none

/-- The element that an identifier refers to; only simple identifiers can be asked. -/
def referent (n : Node) : Except Fault (Option Element) :=
  match n.form with
  | .simpleIdentifier _ element => .ok element
  | _ => .error (.noMember n.kind.className "static_element")

/-- The type of an expression as far as the resolver knows it: its own static type, else the type
of the element that it refers to.  Inside the parentheses there has to be an expression. -/
def resolvedType (n : Node) : Except Fault Ty :=
  if n.isExpression then
    let e := n.unparenthesized
    if e.isExpression then
      match e.staticType with
      | .unresolved => .ok ((e.identifierElement?.map Element.type).getD .unresolved)
      | t => .ok t
    else .error (.noMember e.kind.className "static_type")
  else .ok .unresolved

/-- The executable that a call resolves to. -/
def invoked? (n : Node) : Except Fault (Option Executable) :=
  match n.form with
  | .methodInvocation _ none _ _ => .ok none
  | .methodInvocation _ (some method) _ _ =>
    method.referent.map (fun element => element.bind Element.executable?)
  | .functionExpressionInvocation _ _ element => .ok (element.bind Element.executable?)
  | .instanceCreationExpression _ _ _ _ element => .ok (element.bind Element.executable?)
  | _ => .ok none

/-- The place of an argument among the arguments without a name. -/
def positionIn? (id : NodeId) : List Node → Option Nat
  | [] => none
  | a :: rest =>
    if a.id = id then some 0
    else (positionIn? id rest).map (fun k => if a.isNamedArgument then k else k + 1)

end Node

/-- The type of an expression that may be missing. -/
def resolvedTypeOf : Option Node → Except Fault Ty
  | none => .ok .unresolved
  | some n => n.resolvedType

/-- What an annotation gives. -/
inductive Annotation where
  /-- A type. -/
  | type (t : Ty)
  /-- A node that stands where a type should be. -/
  | node (n : Node)

namespace Annotation

/-- What an annotation names: for a named type the type that the resolver found, for a list of
variables in its place the annotation written there.  Other nodes name nothing. -/
def ofNode (n : Node) : Except Fault Annotation :=
  match n.form with
  | .namedType _ _ named => .ok (.type named)
  | .variableDeclarationList _ none _ => .ok (.type .unresolved)
  | .variableDeclarationList _ (some written) _ => .ok (.node written)
  | _ => .error (.noMember n.kind.className "type")

/-- What an annotation names, if there is one. -/
def ofNode? : Option Node → Except Fault Annotation
  | none => .ok (.type .unresolved)
  | some n => ofNode n

/-- The only one of some type arguments that are written, if there is exactly one. -/
def soleOf : List Node → Annotation
  | [argument] => .node argument
  | _ => .type .unresolved

/-- The only type argument of what an annotation gives, if it has exactly one.  The type arguments
of a list may be missing, and then they cannot be counted. -/
def soleArgument : Annotation → Except Fault Annotation
  | .type t => .ok (.type t.soleArgument)
  | .node n =>
    match n.form with
    | .namedType _ arguments _ => .ok (soleOf arguments)
    | .listLiteral _ (some arguments) _ => .ok (soleOf arguments)
    | .listLiteral _ none _ => .error .uncountable
    | _ => .ok (.type .unresolved)

/-- The type that an annotation gives; a node is none. -/
def asType : Annotation → Except Fault Ty
  | .type t => .ok t
  | .node n => .error (.noMember n.kind.className "element")

end Annotation

namespace Site

/-- The parameter of an executable that one of some arguments is bound to. -/
def bind? (e : Executable) (arguments : List Node) (argument : Node) : Option Parameter :=
  match argument.form with
  | .namedExpression name _ => e.named? name
  | _ => (Node.positionIn? argument.id arguments).bind (fun k => e.positional[k]?)

/-- The parameter that an argument is bound to, if it stands in the argument list of a call that
is resolved. -/
def parameter? (s : Site) : Except Fault (Option Parameter) :=
  match s.ancestors with
  | list :: call :: _ =>
    match list.form with
    | .argumentList arguments =>
      call.invoked?.map (fun e => e.bind (fun e => bind? e arguments s.node))
    | _ => .ok none
  | _ => .ok none

/-- The type of the parameter that an argument is bound to. -/
def parameterType (s : Site) : Except Fault Ty :=
  s.parameter?.map (fun p => (p.map Parameter.type).getD .unresolved)

/-- The target of the nearest cascade around a section. -/
def cascadeTarget? : List Node → Option Node
  | [] => none
  | n :: rest =>
    match n.form with
    | .cascadeExpression target _ => target
    | _ => cascadeTarget? rest

/-- The expression whose property is accessed or whose method is called; in a cascade it is the
target of the cascade.  Other nodes have none. -/
def receiver (s : Site) : Except Fault (Option Node) :=
  match s.node.form with
  | .propertyAccess target _ isCascaded | .methodInvocation target _ _ isCascaded =>
    .ok (if isCascaded then cascadeTarget? s.ancestors else target)
  | _ => .error (.noMember s.node.kind.className "real_target")

end Site

end TreeLint
