/-
The rule against unsafe HTML.

It reports assignments to attributes that load or inject markup, and calls of the
methods and constructors that parse it.  A receiver whose type is not known counts
as unsafe, for nothing shows that it is not one of the classes concerned; a
constructor is reported only if the type it creates is known.
-/
import TreeLint.Rule.Registry
import TreeLint.Syntax.Resolution
namespace TreeLint

namespace UnsafeHtml

/-- The name of the rule. -/
def name : String := "unsafe_html"

/-- The diagnostic kind of an unsafe assignment. -/
def attributeKind : DiagnosticKind where
  name := name
  id := "LintCode.unsafe_html_attribute"
  template := "Avoid unsafe HTML APIs (assigning \"\x7b0\x7d\" attribute)."
  severity := "warn"
  correction := none

/-- The diagnostic kind of an unsafe call of a method. -/
def methodKind : DiagnosticKind where
  name := name
  id := "LintCode.unsafe_html_method"
  template := "Avoid unsafe HTML APIs (calling the '\x7b0\x7d' method of \x7b1\x7d)."
  severity := "warn"
  correction := none

/-- The diagnostic kind of an unsafe call of a constructor. -/
def constructorKind : DiagnosticKind where
  name := name
  id := "LintCode.unsafe_html_constructor"
  template := "Avoid unsafe HTML APIs (calling the '\x7b0\x7d' constructor of \x7b1\x7d)."
  severity := "warn"
  correction := none

/-- The classes on which an attribute of a name is unsafe. -/
def attributeClasses : String → List String
  | "href" => ["AnchorElement"]
  | "src" => ["EmbedElement", "IFrameElement", "ImageElement", "ScriptElement"]
  | "srcdoc" => ["IFrameElement"]
  | _ => []

/-- The class that declares an unsafe method of a name. -/
def methodClass? : String → Option String
  | "createFragment" => some "Element"
  | "setInnerHtml" => some "Element"
  | "open" => some "Window"
  | _ => none

/-- The classes with an unsafe constructor, in the order in which they are tried. -/
def constructorClasses : List String := ["DocumentFragment", "Element"]

/-- The name of the unsafe constructor. -/
def constructorName : String := "html"

/-- A report of the rule about a node. -/
def reportAt (n : Node) (code : DiagnosticKind) (arguments : List String) : Script :=
  .reportOnce ⟨name, n.span, code, arguments.map .string⟩

/-- Does something if a type is not known to be none of some classes. -/
def whenUnsafe (type : Ty) (classes : List String) (action : Script) : Script :=
  .classify type classes htmlLibrary (fun answer => if answer = .no then .done else action)

/-- Checks the assignment to a property of a receiver. -/
def checkProperty (n : Node) (receiver : Ty) (property : String) : Script :=
  match attributeClasses property with
  | [] => .done
  | classes => whenUnsafe receiver classes (reportAt n attributeKind [property])

/-- Checks the assignment to a part of a receiver: first what the receiver is, then the name of the
part. -/
def checkPart (n : Node) (receiver : Option Node) (part : Node) : Script :=
  .attempt (resolvedTypeOf receiver) (fun type =>
    .attempt part.name (fun property => checkProperty n type property))

/-- Checks an assignment to the expression inside the parentheses of its left side.  A plain name
is an attribute only if it is a member of a class. -/
def checkTarget (n : Node) (written : Option Element) (left : Node) : Script :=
  match left.form with
  | .simpleIdentifier property _ =>
    match written.bind Element.enclosingType with
    | some receiver => checkProperty n receiver property
    | none => .done
  | .propertyAccess target (some property) isCascaded =>
    if isCascaded then
      .locate left (fun place => checkPart n (Site.cascadeTarget? place.ancestors) property)
    else checkPart n target property
  | .prefixedIdentifier qualifier (some identifier) => checkPart n qualifier identifier
  | _ => .done

/-- Checks an assignment. -/
def checkAssignment (s : Site) : Script :=
  match s.node.form with
  | .assignmentExpression (some left) _ _ written =>
    if left.isExpression then checkTarget s.node written left.unparenthesized
    else .fail (.noMember left.kind.className "unparenthesized")
  | _ => .done

/-- Reports the first of some classes that the created type extends. -/
def checkCreated (n : Node) (created : Ty) : List String → Script
  | [] => .done
  | cls :: rest =>
    .extendsClass created cls htmlLibrary (fun answer =>
      if answer then reportAt n constructorKind [constructorName, cls]
      else checkCreated n created rest)

/-- Checks a call of a constructor. -/
def checkCreation (s : Site) : Script :=
  match s.node.form with
  | .instanceCreationExpression _ _ (some constructor) _ _ =>
    .attempt constructor.name (fun called =>
      if called = constructorName then
        .attempt s.node.resolvedType (fun created =>
          if created = .unresolved then .done
          else checkCreated s.node created constructorClasses)
      else .done)
  | _ => .done

/-- Checks a call of a method of a class.  Without a receiver the method has to be a member of a
class. -/
def checkReceiver (receiver : Option Node) (method : Node) (cls : String) (action : Script) :
    Script :=
  match receiver with
  | some r => .attempt r.resolvedType (fun type => whenUnsafe type [cls] action)
  | none =>
    .attempt method.referent (fun element =>
      match element.bind Element.enclosingType with
      | some type => whenUnsafe type [cls] action
      | none => .done)

/-- Checks a call of a method. -/
def checkInvocation (s : Site) : Script :=
  match s.node.form with
  | .methodInvocation target (some method) _ isCascaded =>
    .attempt method.name (fun called =>
      match methodClass? called with
      | none => .done
      | some cls =>
        checkReceiver (if isCascaded then Site.cascadeTarget? s.ancestors else target) method cls
          (reportAt s.node methodKind [called, cls]))
  | _ => .done

/-- What the rule tells about itself. -/
def card : RuleCard where
  name := name
  description := "Avoid unsafe HTML APIs."
  group := .errors
  codes := [.kind attributeKind, .kind methodKind, .kind constructorKind]
  details := "
**AVOID**

* assigning directly to the `href` field of an AnchorElement
* assigning directly to the `src` field of an EmbedElement, IFrameElement,
  ImageElement, or ScriptElement
* assigning directly to the `srcdoc` field of an IFrameElement
* calling the `createFragment` method of Element
* calling the `open` method of Window
* calling the `setInnerHtml` method of Element
* calling the `Element.html` constructor
* calling the `DocumentFragment.html` constructor


**BAD:**
```dart
var script = ScriptElement()..src = 'foo.js';
```
"

/-- The handlers of the rule. -/
def registrations : List Registration := [
  ⟨.string NodeKind.assignmentExpression.name, name, some (fun _ => checkAssignment)⟩,
  ⟨.string NodeKind.instanceCreationExpression.name, name, some (fun _ => checkCreation)⟩,
  ⟨.string NodeKind.methodInvocation.name, name, some (fun _ => checkInvocation)⟩]

/-- The rule. -/
def rule : Rule where
  object := .foreign (.ofText "<rule unsafe_html>")
  card := some card
  setup := some (fun _ => .addAll registrations)

end UnsafeHtml

end TreeLint
