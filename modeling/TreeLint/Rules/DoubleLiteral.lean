/-
The rule that prefers double literals.

It reports an integer literal where the surrounding code expects a double, if the
integer is a double.  What the surrounding code expects of an expression is
found from its ancestors: a parameter's type for an argument, the type argument of
a list for an element, the return type of a function for what it returns, the
annotation of a variable for its initial value.  Below a minus sign the type asked
for is that of integers, and below any other operator nothing is reported.
-/
import TreeLint.Model.Representable
import TreeLint.Rule.Registry
import TreeLint.Syntax.Resolution
namespace TreeLint

namespace DoubleLiteral

/-- The name of the rule. -/
def name : String := "prefer_double_literals"

/-- The diagnostic kind of an integer literal that should be a double. -/
def literalKind : DiagnosticKind where
  name := name
  id := "LintCode.prefer_double_literals"
  template := "'int' literal used where the value is a 'double'."
  severity := "info"
  correction := some "Try using a 'double' literal."

/-- The type that the function around a body declares to return, from the nodes above the body:
for a function without a name it is written at its declaration. -/
def declaredReturn : List Node → Except Fault Annotation
  | [] => .ok (.type .unresolved)
  | owner :: above =>
    match owner.form with
    | .functionExpression .. =>
      match above with
      | [] => .ok (.type .unresolved)
      | declaration :: _ =>
        match declaration.form with
        | .functionDeclaration returnType .. => Annotation.ofNode? returnType
        | _ => .ok (.type .unresolved)
    | .methodDeclaration returnType .. => Annotation.ofNode? returnType
    | _ => .ok (.type .unresolved)

/-- The nodes above the nearest body in braces among some nodes. -/
def aboveBody : List Node → Option (List Node)
  | [] => none
  | n :: above => if n.kind = .blockFunctionBody then some above else aboveBody above

/-- The type of the parameter that an argument is bound to, as an expectation. -/
def parameterExpectation (s : Site) : Except Fault Annotation := s.parameterType.map .type

/-- The type that the code around a node expects it to have, given the nodes above it. -/
def expectedType (n : Node) : List Node → Except Fault Annotation
  | [] => .ok (.type .unresolved)
  | parent :: above =>
    match parent.form with
    | .argumentList _ => parameterExpectation ⟨n, parent :: above⟩
    | .listLiteral _ (some [argument]) _ => Annotation.ofNode argument
    | .listLiteral _ (some _) _ => .ok (.type .unresolved)
    | .listLiteral _ none _ => (expectedType parent above).bind Annotation.soleArgument
    | .namedExpression _ _ =>
      match above with
      | [] => .ok (.type .unresolved)
      | list :: _ =>
        match list.form with
        | .argumentList _ => parameterExpectation ⟨parent, above⟩
        | _ => .ok (.type .unresolved)
    | .expressionFunctionBody _ => declaredReturn above
    | .returnStatement _ => ((aboveBody above).map declaredReturn).getD (.ok (.type .unresolved))
    | .variableDeclaration _ _ _ =>
      match above with
      | [] => .ok (.type .unresolved)
      | list :: _ =>
        match list.form with
        | .variableDeclarationList _ type _ => Annotation.ofNode? type
        | _ => .ok (.type .unresolved)
    | _ => .ok (.type .unresolved)

/-- The core class that an integer literal has to be expected as, and where: itself as a double,
or the negation around it as an integer. -/
def expectation (s : Site) : Option (Site × String) :=
  match s.ancestors with
  | [] => some (s, "double")
  | parent :: above =>
    match parent.form with
    | .prefixExpression operator _ =>
      if operator = "-" then some (⟨parent, above⟩, "int") else none
    | _ => some (s, "double")

/-- Whether what is expected is a core class of a name, and known to be it. -/
def isExactly (h : Hierarchy) (expected : Annotation) (cls : String) : Bool :=
  match expected with
  | .type t => h.classifyCoreClass t cls == .yes
  | .node _ => false

/-- Whether an integer literal stands where a double is expected. -/
def isMisplaced (h : Hierarchy) (s : Site) : Except Fault Bool :=
  match expectation s with
  | some (place, cls) =>
    (expectedType place.node place.ancestors).map (fun expected => isExactly h expected cls)
  | none => .ok false

/-- Checks an integer literal. -/
def checkLiteral (h : Hierarchy) (s : Site) : Script :=
  match s.node.form with
  | .integerLiteral _ value =>
    if Double.represents value = .yes then
      .attempt (isMisplaced h s) (fun misplaced =>
        if misplaced then .reportOnce ⟨name, s.node.span, literalKind, []⟩ else .done)
    else .done
  | _ => .done

/-- What the rule tells about itself. -/
def card : RuleCard where
  name := name
  description := "Prefer double literals over int literals."
  group := .style
  codes := [.kind literalKind]
  details := "
**DO** use double literals rather than the corresponding int literal.

**BAD:**
```dart
const double myDouble = 8;
final anotherDouble = myDouble + 700;
main() \x7b
  someMethodThatReceivesDouble(6);
\x7d
```

**GOOD:**
```dart
const double myDouble = 8.0;
final anotherDouble = myDouble + 7.0e2;
main() \x7b
  someMethodThatReceivesDouble(6.0);
\x7d
```
"

/-- The rule, for the classes of a hierarchy. -/
def rule (h : Hierarchy) : Rule where
  object := .foreign (.ofText "<rule prefer_double_literals>")
  card := some card
  setup := some (fun _ => .addAll
    [⟨.string NodeKind.integerLiteral.name, name, some (fun _ => checkLiteral h)⟩])

end DoubleLiteral

end TreeLint
