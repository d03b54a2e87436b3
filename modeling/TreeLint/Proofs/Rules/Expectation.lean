/-
The double-literal rule, from the top down.

The rule asks at each integer literal what the code above it expects, and climbs
through the ancestors to find out.  The same expectations can be pushed down from the
root: every node is given its role by its parent, together with the type that the
nearest body in braces is declared to return (`Context.pushed`), and a literal is
marked when its role asks for a double (`IsMarked`).

The two agree on every linked tree whose parts are of the kinds meant for them.  The
invariant is `Fits`: what the ancestors of a node answer to the questions of the rule
is what the context of the node says.  It holds at the root, and each parent passes it
on to its children (`Fits.pushed`), one case for each form; most forms tell their
children nothing but what they expect (`Fits.of_isOrdinary`).
-/
import TreeLint.Proofs.Rule.Enrollment
import TreeLint.Proofs.Syntax.Binding
import TreeLint.Proofs.Syntax.Parents
import TreeLint.Proofs.Value.Telling
import TreeLint.Rules.DoubleLiteral
namespace TreeLint

namespace DoubleLiteral

/-! ### Pushing expectations down -/

/-- What a node is to its parent. -/
inductive Role where
  /-- An expression that is expected to have a type; unresolved if nothing is expected. -/
  | expression (expected : Ty)
  /-- An argument with a name, for a parameter of a type. -/
  | namedArgument (expected : Ty)
  /-- What is negated, in an expression that is expected to have a type. -/
  | negated (expected : Ty)
  /-- The operand of another operator. -/
  | operand
  /-- A variable of a list with an annotated type. -/
  | variable (annotated : Ty)
  /-- The function of a declaration with an annotated return type. -/
  | function (annotated : Ty)
  /-- The body of a function or a method with an annotated return type. -/
  | body (annotated : Ty)
  /-- The arguments of a call, and the executable that the call resolves to. -/
  | arguments (callee : Option Executable)

namespace Role

/-- The role of a node of which nothing is expected. -/
def nothing : Role := .expression .unresolved

/-- The type that the node is expected to have. -/
def expected : Role → Ty
  | .expression t | .namedArgument t => t
  | _ => .unresolved

/-- The type that the expression of an argument with a name is expected to have. -/
def ofArgument : Role → Ty
  | .namedArgument t => t
  | _ => .unresolved

/-- The type that the initial value of a variable is expected to have. -/
def ofVariable : Role → Ty
  | .variable t => t
  | _ => .unresolved

/-- The type that a function without a name is declared to return. -/
def ofFunction : Role → Ty
  | .function t => t
  | _ => .unresolved

/-- The type that a body is declared to return. -/
def ofBody : Role → Ty
  | .body t => t
  | _ => .unresolved

/-- The executable that takes the arguments of a list. -/
def callee : Role → Option Executable
  | .arguments e => e
  | _ => none

/-- The role of an argument, by the parameter that it is bound to. -/
def ofParameter (argument : Node) (parameter : Option Parameter) : Role :=
  let t := (parameter.map Parameter.type).getD .unresolved
  if argument.isNamedArgument then .namedArgument t else .expression t

/-- The role of the operand of an operator, by the type that the whole is expected to have. -/
def ofOperand (operator : String) (expected : Ty) : Role :=
  if operator = "-" then .negated expected else .operand

end Role

/-- What a node is told from above. -/
structure Context where
  /-- What the node is to its parent. -/
  role : Role
  /-- The type that the nearest body in braces around the node is declared to return. -/
  returned : Ty

/-- The type that the elements of a list are expected to have: the only type argument that is
written, and without type arguments the only one of the type that the list is expected to have. -/
def elementType (expected : Ty) : Option (List Node) → Ty
  | some [argument] => Node.annotated (some argument)
  | some _ => .unresolved
  | none => expected.soleArgument

namespace Context

/-- The context of the root. -/
def start : Context := ⟨.nothing, .unresolved⟩

/-- Gives some nodes one role, and tells them the declared return type. -/
def give (ctx : Context) (role : Role) (nodes : List Node) : List (Node × Context) :=
  nodes.map fun n => (n, ⟨role, ctx.returned⟩)

/-- The children of a form with what they are told. -/
def pushed (ctx : Context) : Form → List (Node × Context)
  | .variableDeclarationList _ type declared =>
    ctx.give .nothing type.toList ++ ctx.give (.variable (Node.annotated type)) declared
  | .variableDeclaration _ initializer _ =>
    ctx.give (.expression ctx.role.ofVariable) initializer.toList
  | .functionDeclaration returnType _ function _ =>
    ctx.give .nothing returnType.toList ++
      ctx.give (.function (Node.annotated returnType)) function.toList
  | .functionExpression body _ => ctx.give (.body ctx.role.ofFunction) body.toList
  | .methodDeclaration returnType _ body _ =>
    ctx.give .nothing returnType.toList ++
      ctx.give (.body (Node.annotated returnType)) body.toList
  | .expressionFunctionBody expression =>
    ctx.give (.expression ctx.role.ofBody) expression.toList
  | .blockFunctionBody block => give ⟨ctx.role, ctx.role.ofBody⟩ .nothing block.toList
  | .returnStatement expression => ctx.give (.expression ctx.returned) expression.toList
  | .methodInvocation target method arguments isCascaded =>
    ctx.give .nothing (target.toList ++ method.toList) ++
      ctx.give (.arguments (Node.callee? (.methodInvocation target method arguments isCascaded)))
        arguments.toList
  | .functionExpressionInvocation function arguments element =>
    ctx.give .nothing function.toList ++
      ctx.give (.arguments (Node.callee?
        (.functionExpressionInvocation function arguments element))) arguments.toList
  | .instanceCreationExpression keyword type constructor arguments element =>
    ctx.give .nothing (type.toList ++ constructor.toList) ++
      ctx.give (.arguments (Node.callee?
        (.instanceCreationExpression keyword type constructor arguments element)))
        arguments.toList
  | .argumentList arguments =>
    (Site.bindAll ctx.role.callee 0 arguments).map fun p =>
      (p.1, ⟨Role.ofParameter p.1 p.2, ctx.returned⟩)
  | .namedExpression _ expression =>
    ctx.give (.expression ctx.role.ofArgument) expression.toList
  | .listLiteral _ typeArguments elements =>
    ctx.give .nothing (typeArguments.getD []) ++
      ctx.give (.expression (elementType ctx.role.expected typeArguments)) elements
  | .prefixExpression operator operand =>
    ctx.give (Role.ofOperand operator ctx.role.expected) operand.toList
  | form => ctx.give .nothing form.children

lemma forall_mem_give {ctx : Context} {role : Role} {nodes : List Node}
    {P : Node × Context → Prop} :
    (∀ p ∈ ctx.give role nodes, P p) ↔ ∀ c ∈ nodes, P (c, ⟨role, ctx.returned⟩) := by
  simp [give]

@[simp] lemma map_fst_give (ctx : Context) (role : Role) (nodes : List Node) :
    (ctx.give role nodes).map Prod.fst = nodes := by
  simp [give, Function.comp_def]

lemma map_fst_pushed (ctx : Context) (form : Form) :
    (ctx.pushed form).map Prod.fst = form.children := by
  cases form with
  | argumentList arguments =>
    rw [pushed, List.map_map]
    exact Site.map_fst_bindAll _ _ _
  | _ => simp [pushed, Form.children]

lemma mem_children_of_mem_pushed {ctx : Context} {n : Node} {p : Node × Context}
    (hp : p ∈ ctx.pushed n.form) : p.1 ∈ n.children := by
  rw [Node.children, ← ctx.map_fst_pushed]
  exact List.mem_map_of_mem hp

end Context

/-- A node and the nodes below it, each with what it is told from above, in the order of a walk. -/
def annotate (ctx : Context) (n : Node) : List (Node × Context) :=
  (n, ctx) :: (ctx.pushed n.form).attach.flatMap fun p =>
    have := Node.sizeOf_lt_of_mem_children (Context.mem_children_of_mem_pushed p.2)
    annotate p.1.2 p.1.1
termination_by sizeOf n

lemma annotate_eq (ctx : Context) (n : Node) :
    annotate ctx n = (n, ctx) :: (ctx.pushed n.form).flatMap fun p => annotate p.2 p.1 := by
  rw [annotate, ← List.flatMap_map Subtype.val (fun p : Node × Context => annotate p.2 p.1),
    List.attach_map_subtype_val]

/-- Every node of a tree is told something, once. -/
lemma map_fst_annotate (ctx : Context) (n : Node) :
    (annotate ctx n).map Prod.fst = n.preorder := by
  induction n using Node.induction generalizing ctx with
  | step n ih =>
    rw [annotate_eq, n.preorder_eq, List.map_cons, List.map_flatMap]
    have hchildren : ∀ p ∈ ctx.pushed n.form, (annotate p.2 p.1).map Prod.fst = p.1.preorder :=
      fun p hp => ih p.1 (Context.mem_children_of_mem_pushed hp) p.2
    rw [List.flatMap_congr hchildren, Node.children, ← ctx.map_fst_pushed, List.flatMap_map]

/-- Whether a type is exactly a class of the core library. -/
def IsCore (h : Hierarchy) (t : Ty) (name : String) : Prop :=
  ∃ cls arguments decl, t = .interface cls arguments ∧ h.get? cls = some decl ∧
    decl.name = name ∧ decl.library = coreLibrary

/-- Whether a node is an integer that a double represents, and stands where exactly a double is
expected, or is negated where exactly an integer is. -/
def IsMarked (h : Hierarchy) (n : Node) (ctx : Context) : Prop :=
  ∃ lexeme value, n.form = .integerLiteral lexeme value ∧ Double.represents value = .yes ∧
    ((∃ t, ctx.role = .expression t ∧ IsCore h t "double") ∨
      ∃ t, ctx.role = .negated t ∧ IsCore h t "int")

/-! ### The questions of the rule, one step at a time -/

/-- Whether a form tells its children nothing but what they are expected to be. -/
def isOrdinary : Form → Bool
  | .blockFunctionBody _ | .functionExpression .. | .functionDeclaration .. | .methodDeclaration ..
  | .variableDeclarationList .. | .methodInvocation .. | .functionExpressionInvocation ..
  | .instanceCreationExpression .. | .argumentList _ | .prefixExpression .. => false
  | _ => true

/-- Whether a form is a call. -/
def isCall : Form → Bool
  | .methodInvocation .. | .functionExpressionInvocation .. | .instanceCreationExpression .. => true
  | _ => false

/-- The return type that is written at the declaration of a function without a name, given the
nodes above the function. -/
def functionReturn : List Node → Except Fault Annotation
  | declaration :: _ =>
    match declaration.form with
    | .functionDeclaration returnType .. => Annotation.ofNode? returnType
    | _ => .ok (.type .unresolved)
  | [] => .ok (.type .unresolved)

/-- The type that is written before a variable, given the nodes above the variable. -/
def variableType : List Node → Except Fault Annotation
  | list :: _ =>
    match list.form with
    | .variableDeclarationList _ type _ => Annotation.ofNode? type
    | _ => .ok (.type .unresolved)
  | [] => .ok (.type .unresolved)

/-- The type of the parameter of an argument with a name, given the nodes above the argument. -/
def argumentType (n : Node) (above : List Node) : Except Fault Annotation :=
  match above with
  | list :: _ =>
    match list.form with
    | .argumentList _ => parameterExpectation ⟨n, above⟩
    | _ => .ok (.type .unresolved)
  | [] => .ok (.type .unresolved)

/-- The executable of a call, given the call and the nodes above it. -/
def calledAbove : List Node → Except Fault (Option Executable)
  | call :: _ => call.invoked?
  | [] => .ok none

/-- The type that the nearest body in braces is declared to return. -/
def returnAbove (above : List Node) : Except Fault Annotation :=
  ((aboveBody above).map declaredReturn).getD (.ok (.type .unresolved))

/-- Whether a role asks for a double in the place of an integer literal. -/
def Role.wantsDouble (h : Hierarchy) : Role → Bool
  | .expression t => h.isCoreClass t "double"
  | .negated t => h.isCoreClass t "int"
  | _ => false

lemma isCoreClass_iff {h : Hierarchy} {t : Ty} {name : String} :
    h.isCoreClass t name = true ↔ IsCore h t name := by
  rw [Hierarchy.isCoreClass, IsCore]
  cases t with
  | unresolved => simp [Ty.class?]
  | dynamic => simp [Ty.class?]
  | interface cls arguments =>
    rcases hget : h.get? cls with _ | decl
    · simp [Ty.class?, hget]
    · simp [Ty.class?, hget, ClassDecl.isNamed]

lemma isExactly_type (h : Hierarchy) (t : Ty) (name : String) :
    isExactly h (.type t) name = h.isCoreClass t name := by
  rw [isExactly, Hierarchy.classifyCoreClass]
  cases t with
  | interface cls arguments =>
    rw [Ty.isVague_interface, if_neg Bool.false_ne_true]
    cases h.isCoreClass (.interface cls arguments) name <;> rfl
  | _ => rfl

/-! ### The invariant -/

/-- Whether the nodes above a node answer the questions of the rule as the context of the node
says.  Most parents answer most questions with nothing, and there the definitions compute the
answer. -/
structure Fits (h : Hierarchy) (ctx : Context) (n : Node) (above : List Node) : Prop where
  expected : n.isExpression = true → expectedType n above = .ok (.type ctx.role.expected)
  returned : returnAbove above = .ok (.type ctx.returned)
  inBody : n.kind ≠ .namedType → declaredReturn above = .ok (.type ctx.role.ofBody)
  inFunction : n.kind ≠ .namedType → functionReturn above = .ok (.type ctx.role.ofFunction)
  inList : n.kind ≠ .namedType → variableType above = .ok (.type ctx.role.ofVariable)
  inArgument : n.kind = .namedExpression →
      argumentType n above = .ok (.type ctx.role.ofArgument)
  inCall : n.kind = .argumentList → calledAbove above = .ok ctx.role.callee
  misplaced : n.kind = .integerLiteral →
      isMisplaced h ⟨n, above⟩ = .ok (ctx.role.wantsDouble h)

namespace Fits

variable {h : Hierarchy} {ctx : Context} {n c : Node} {above : List Node}

lemma start (h : Hierarchy) (root : Node) : Fits h .start root [] := by
  constructor
  case returned => rfl
  all_goals exact fun _ => rfl

/-- Annotations are told nothing, and are not asked. -/
lemma of_namedType {role : Role} {returned : Ty} (hc : c.kind = .namedType)
    (hreturned : returnAbove above = .ok (.type returned)) :
    Fits h ⟨role, returned⟩ c above where
  expected hexpression := by rw [Node.isExpression, hc] at hexpression; cases hexpression
  returned := hreturned
  inBody hne := absurd hc hne
  inFunction hne := absurd hc hne
  inList hne := absurd hc hne
  inArgument heq := by rw [hc] at heq; cases heq
  inCall heq := by rw [hc] at heq; cases heq
  misplaced heq := by rw [hc] at heq; cases heq

/-- The children of ordinary forms fit. -/
lemma of_isOrdinary (hn : Fits h ctx n above) (hordinary : isOrdinary n.form = true) {t : Ty}
    (ht : c.isExpression = true → expectedType c (n :: above) = .ok (.type t)) :
    Fits h ⟨.expression t, ctx.returned⟩ c (n :: above) := by
  have hmisplaced : c.kind = .integerLiteral →
      isMisplaced h ⟨c, n :: above⟩ =
        (expectedType c (n :: above)).map (isExactly h · "double") →
      isMisplaced h ⟨c, n :: above⟩ = .ok (h.isCoreClass t "double") := by
    intro hc heq
    rw [heq, ht (by rw [Node.isExpression, hc]; rfl), Except.map, isExactly_type]
  obtain ⟨id, span, staticType, form⟩ := n
  -- an ordinary form is not what any question but that of `expectedType` looks for
  cases form <;>
    first
    | cases hordinary; done
    | constructor
      case expected => exact ht
      case returned => exact hn.returned
      case misplaced => exact fun hc => hmisplaced hc rfl
      all_goals exact fun _ => rfl

/-- A block in the braces of a body fits: what the body is declared to return holds below it. -/
lemma of_blockFunctionBody (hn : Fits h ctx n above) {block : Option Node}
    (hform : n.form = .blockFunctionBody block) :
    Fits h ⟨.nothing, ctx.role.ofBody⟩ c (n :: above) := by
  obtain ⟨id, span, staticType, form⟩ := n
  cases hform
  constructor
  case returned => exact hn.inBody nofun
  all_goals exact fun _ => rfl

/-- The body of a function without a name fits: it is declared to return what the function is. -/
lemma of_functionExpression (hn : Fits h ctx n above) {body : Option Node}
    {element : Option Element} (hform : n.form = .functionExpression body element) :
    Fits h ⟨.body ctx.role.ofFunction, ctx.returned⟩ c (n :: above) := by
  obtain ⟨id, span, staticType, form⟩ := n
  cases hform
  constructor
  case returned => exact hn.returned
  case inBody =>
    refine fun _ => Eq.trans ?_ (hn.inFunction nofun)
    cases above <;> rfl
  all_goals exact fun _ => rfl

lemma of_functionDeclaration (hn : Fits h ctx n above) {returnType function : Option Node}
    {name : String} {element : Option Element}
    (hform : n.form = .functionDeclaration returnType name function element)
    (hkinds : ∀ r ∈ returnType, r.kind = .namedType) :
    Fits h ⟨.function (Node.annotated returnType), ctx.returned⟩ c (n :: above) := by
  obtain ⟨id, span, staticType, form⟩ := n
  cases hform
  constructor
  case returned => exact hn.returned
  case inFunction => exact fun _ => Annotation.ofNode?_eq hkinds
  all_goals exact fun _ => rfl

lemma of_methodDeclaration (hn : Fits h ctx n above) {returnType body : Option Node}
    {name : String} {element : Option Element}
    (hform : n.form = .methodDeclaration returnType name body element)
    (hkinds : ∀ r ∈ returnType, r.kind = .namedType) :
    Fits h ⟨.body (Node.annotated returnType), ctx.returned⟩ c (n :: above) := by
  obtain ⟨id, span, staticType, form⟩ := n
  cases hform
  constructor
  case returned => exact hn.returned
  case inBody => exact fun _ => Annotation.ofNode?_eq hkinds
  all_goals exact fun _ => rfl

lemma of_variableDeclarationList (hn : Fits h ctx n above) {keyword : Option String}
    {type : Option Node} {declared : List Node}
    (hform : n.form = .variableDeclarationList keyword type declared)
    (hkinds : ∀ t ∈ type, t.kind = .namedType) :
    Fits h ⟨.variable (Node.annotated type), ctx.returned⟩ c (n :: above) := by
  obtain ⟨id, span, staticType, form⟩ := n
  cases hform
  constructor
  case returned => exact hn.returned
  case inList => exact fun _ => Annotation.ofNode?_eq hkinds
  all_goals exact fun _ => rfl

lemma of_isCall (hn : Fits h ctx n above) (hcall : isCall n.form = true)
    (hc : c.kind ≠ .argumentList) : Fits h ⟨.nothing, ctx.returned⟩ c (n :: above) := by
  obtain ⟨id, span, staticType, form⟩ := n
  cases form <;>
    first
    | cases hcall; done
    | constructor
      case returned => exact hn.returned
      case inCall => exact fun heq => absurd heq hc
      all_goals exact fun _ => rfl

lemma arguments_of_isCall (hn : Fits h ctx n above) (hcall : isCall n.form = true)
    (hkinds : n.form.HasDeclaredKinds) :
    Fits h ⟨.arguments (Node.callee? n.form), ctx.returned⟩ c (n :: above) := by
  have hinvoked := Node.invoked?_eq hkinds
  obtain ⟨id, span, staticType, form⟩ := n
  cases form <;>
    first
    | cases hcall; done
    | constructor
      case returned => exact hn.returned
      case inCall => exact fun _ => hinvoked
      all_goals exact fun _ => rfl

/-- The parameter that an argument is bound to, looked up from the argument. -/
lemma parameterExpectation_eq (hn : Fits h ctx n above) {arguments : List Node}
    (hform : n.form = .argumentList arguments) (hdistinct : (arguments.map Node.id).Nodup)
    {p : Node × Option Parameter} (hp : p ∈ Site.bindAll ctx.role.callee 0 arguments) :
    parameterExpectation ⟨p.1, n :: above⟩ =
      .ok (.type ((p.2.map Parameter.type).getD .unresolved)) := by
  have hcalled := hn.inCall (by rw [Node.kind, hform]; rfl)
  have hbind := Site.bind?_of_mem_bindAll hdistinct hp
  have hparameter : Site.parameter? ⟨p.1, n :: above⟩ = .ok p.2 := by
    cases above with
    | nil =>
      -- a list of arguments without a call around it binds nothing
      rw [calledAbove, Except.ok.injEq] at hcalled
      rw [← hcalled] at hbind
      rw [← hbind]
      rfl
    | cons call rest =>
      rw [calledAbove] at hcalled
      simp only [Site.parameter?, hform, hcalled, Except.map, hbind]
  rw [parameterExpectation, Site.parameterType, hparameter]
  rfl

/-- The arguments of a list fit: each is expected to have the type of its parameter. -/
lemma of_argumentList (hn : Fits h ctx n above) {arguments : List Node}
    (hform : n.form = .argumentList arguments) (hdistinct : (arguments.map Node.id).Nodup)
    {p : Node × Option Parameter} (hp : p ∈ Site.bindAll ctx.role.callee 0 arguments) :
    Fits h ⟨Role.ofParameter p.1 p.2, ctx.returned⟩ p.1 (n :: above) := by
  have hparameter := hn.parameterExpectation_eq hform hdistinct hp
  obtain ⟨id, span, staticType, form⟩ := n
  cases hform
  rw [Role.ofParameter]
  split
  · next hnamed =>
    constructor
    case expected => exact fun _ => hparameter
    case returned => exact hn.returned
    case inArgument => exact fun _ => hparameter
    case misplaced =>
      intro hinteger
      rw [Node.isNamedArgument, hinteger] at hnamed
      cases hnamed
    all_goals exact fun _ => rfl
  · next hpositional =>
    constructor
    case expected => exact fun _ => hparameter
    case returned => exact hn.returned
    case inArgument =>
      intro hnamed
      rw [Node.isNamedArgument, hnamed] at hpositional
      exact absurd rfl hpositional
    case misplaced =>
      intro _
      have hexpected :
          expectedType p.1 (.mk id span staticType (.argumentList arguments) :: above) = _ :=
        hparameter
      rw [isMisplaced, expectation]
      simp only [Node.form, hexpected, Except.map, isExactly_type]
      rfl
    all_goals exact fun _ => rfl

/-- The operand of an operator fits: below a minus sign the question goes to the whole. -/
lemma of_prefixExpression (hn : Fits h ctx n above) {operator : String} {operand : Option Node}
    (hform : n.form = .prefixExpression operator operand) :
    Fits h ⟨Role.ofOperand operator ctx.role.expected, ctx.returned⟩ c (n :: above) := by
  obtain ⟨id, span, staticType, form⟩ := n
  cases hform
  have hwhole := hn.expected rfl
  rw [Role.ofOperand]
  split
  · next hminus =>
    subst hminus
    constructor
    case returned => exact hn.returned
    case misplaced =>
      intro _
      simp only [isMisplaced, expectation, Node.form, if_true, hwhole, Except.map, isExactly_type]
      rfl
    all_goals exact fun _ => rfl
  · next hother =>
    constructor
    case returned => exact hn.returned
    case misplaced =>
      intro _
      simp only [isMisplaced, expectation, Node.form, if_neg hother]
      rfl
    all_goals exact fun _ => rfl

/-! ### What expressions are expected to have -/

lemma expectedType_variable (hn : Fits h ctx n above) {name : String} {initializer : Option Node}
    {element : Option Element} (hform : n.form = .variableDeclaration name initializer element) :
    expectedType c (n :: above) = .ok (.type ctx.role.ofVariable) := by
  obtain ⟨id, span, staticType, form⟩ := n
  cases hform
  refine Eq.trans ?_ (hn.inList nofun)
  cases above <;> rfl

lemma expectedType_body (hn : Fits h ctx n above) {expression : Option Node}
    (hform : n.form = .expressionFunctionBody expression) :
    expectedType c (n :: above) = .ok (.type ctx.role.ofBody) := by
  obtain ⟨id, span, staticType, form⟩ := n
  cases hform
  exact hn.inBody nofun

lemma expectedType_returned (hn : Fits h ctx n above) {expression : Option Node}
    (hform : n.form = .returnStatement expression) :
    expectedType c (n :: above) = .ok (.type ctx.returned) := by
  obtain ⟨id, span, staticType, form⟩ := n
  cases hform
  exact hn.returned

lemma expectedType_named (hn : Fits h ctx n above) {name : String} {expression : Option Node}
    (hform : n.form = .namedExpression name expression) :
    expectedType c (n :: above) = .ok (.type ctx.role.ofArgument) := by
  obtain ⟨id, span, staticType, form⟩ := n
  cases hform
  refine Eq.trans ?_ (hn.inArgument rfl)
  cases above <;> rfl

/-- An element of a list is expected to have the only type argument of the list. -/
lemma expectedType_element (hn : Fits h ctx n above) {keyword : Option String}
    {typeArguments : Option (List Node)} {elements : List Node}
    (hform : n.form = .listLiteral keyword typeArguments elements)
    (hkinds : ∀ t ∈ typeArguments.getD [], t.kind = .namedType) :
    expectedType c (n :: above) = .ok (.type (elementType ctx.role.expected typeArguments)) := by
  obtain ⟨id, span, staticType, form⟩ := n
  cases hform
  match typeArguments with
  | none =>
    -- the list is an expression itself, and its own parent says what it is expected to be
    exact congrArg (Except.bind · Annotation.soleArgument) (hn.expected rfl)
  | some [] => rfl
  | some [argument] =>
    have hargument : Annotation.ofNode? (some argument) =
        .ok (.type (Node.annotated (some argument))) := by
      refine Annotation.ofNode?_eq fun t ht => ?_
      cases ht
      exact hkinds argument List.mem_cons_self
    exact hargument
  | some (_ :: _ :: _) => rfl

/-- Annotations below a node that is no body in braces fit. -/
lemma of_types (hn : Fits h ctx n above) (hne : n.kind ≠ .blockFunctionBody) {types : List Node}
    (htypes : ∀ t ∈ types, t.kind = .namedType) :
    ∀ p ∈ ctx.give .nothing types, Fits h p.2 p.1 (n :: above) := by
  rw [Context.forall_mem_give]
  intro t ht
  refine of_namedType (htypes t ht) ?_
  rw [returnAbove, aboveBody, if_neg hne]
  exact hn.returned

/-- The parts of a call fit: the arguments are told the executable, the others nothing. -/
lemma of_call (hn : Fits h ctx n above) {form : Form} (hform : n.form = form)
    (hcall : isCall form = true) (hkinds : form.HasDeclaredKinds) {parts : List Node}
    {arguments : Option Node} (hparts : ∀ c ∈ parts, c.kind ≠ .argumentList) :
    ∀ p ∈ ctx.give .nothing parts ++ ctx.give (.arguments (Node.callee? form)) arguments.toList,
      Fits h p.2 p.1 (n :: above) := by
  subst hform
  rw [List.forall_mem_append, Context.forall_mem_give, Context.forall_mem_give]
  exact ⟨fun c hc => hn.of_isCall hcall (hparts c hc),
    fun c _ => hn.arguments_of_isCall hcall hkinds⟩

lemma kind_ne_argumentList_of_isExpression (hc : c.isExpression = true) :
    c.kind ≠ .argumentList := by
  intro heq
  rw [Node.isExpression, heq] at hc
  cases hc

/-- What every parent tells its children fits. -/
lemma pushed (hn : Fits h ctx n above) (hkinds : n.form.HasDeclaredKinds)
    (hdistinct : (n.children.map Node.id).Nodup) :
    ∀ p ∈ ctx.pushed n.form, Fits h p.2 p.1 (n :: above) := by
  have hkind : n.kind = n.form.kind := rfl
  rw [Node.children] at hdistinct
  cases hform : n.form with
  | variableDeclarationList keyword type declared =>
    rw [hform] at hkinds hkind
    exact List.forall_mem_append.2
      ⟨hn.of_types (by rw [hkind]; nofun) fun t ht => hkinds.1 t (Option.mem_toList.1 ht),
        Context.forall_mem_give.2 fun c _ => hn.of_variableDeclarationList hform hkinds.1⟩
  | variableDeclaration name initializer element =>
    exact Context.forall_mem_give.2 fun c _ =>
      hn.of_isOrdinary (by rw [hform]; rfl) fun _ => hn.expectedType_variable hform
  | functionDeclaration returnType name function element =>
    rw [hform] at hkinds hkind
    exact List.forall_mem_append.2
      ⟨hn.of_types (by rw [hkind]; nofun) fun t ht => hkinds.1 t (Option.mem_toList.1 ht),
        Context.forall_mem_give.2 fun c _ => hn.of_functionDeclaration hform hkinds.1⟩
  | functionExpression body element =>
    exact Context.forall_mem_give.2 fun c _ => hn.of_functionExpression hform
  | methodDeclaration returnType name body element =>
    rw [hform] at hkinds hkind
    exact List.forall_mem_append.2
      ⟨hn.of_types (by rw [hkind]; nofun) fun t ht => hkinds t (Option.mem_toList.1 ht),
        Context.forall_mem_give.2 fun c _ => hn.of_methodDeclaration hform hkinds⟩
  | expressionFunctionBody expression =>
    exact Context.forall_mem_give.2 fun c _ =>
      hn.of_isOrdinary (by rw [hform]; rfl) fun _ => hn.expectedType_body hform
  | blockFunctionBody block =>
    exact Context.forall_mem_give.2 fun c _ => hn.of_blockFunctionBody hform
  | returnStatement expression =>
    exact Context.forall_mem_give.2 fun c _ =>
      hn.of_isOrdinary (by rw [hform]; rfl) fun _ => hn.expectedType_returned hform
  | methodInvocation target method arguments isCascaded =>
    rw [hform] at hkinds
    refine hn.of_call hform rfl hkinds fun c hc => ?_
    rcases List.mem_append.1 hc with hc | hc
    · exact kind_ne_argumentList_of_isExpression (hkinds.1 c (Option.mem_toList.1 hc))
    · rw [hkinds.2.1 c (Option.mem_toList.1 hc)]
      nofun
  | functionExpressionInvocation function arguments element =>
    rw [hform] at hkinds
    exact hn.of_call hform rfl hkinds fun c hc =>
      kind_ne_argumentList_of_isExpression (hkinds.1 c (Option.mem_toList.1 hc))
  | instanceCreationExpression keyword type constructor arguments element =>
    rw [hform] at hkinds
    refine hn.of_call hform rfl hkinds fun c hc => ?_
    rcases List.mem_append.1 hc with hc | hc
    · rw [hkinds.1 c (Option.mem_toList.1 hc)]
      nofun
    · rw [hkinds.2.1 c (Option.mem_toList.1 hc)]
      nofun
  | argumentList arguments =>
    rw [hform] at hdistinct
    rw [Context.pushed, List.forall_mem_map]
    exact fun p hp => hn.of_argumentList hform hdistinct hp
  | namedExpression name expression =>
    exact Context.forall_mem_give.2 fun c _ =>
      hn.of_isOrdinary (by rw [hform]; rfl) fun _ => hn.expectedType_named hform
  | listLiteral keyword typeArguments elements =>
    rw [hform] at hkinds hkind
    exact List.forall_mem_append.2
      ⟨hn.of_types (by rw [hkind]; nofun) hkinds.1,
        Context.forall_mem_give.2 fun c _ =>
          hn.of_isOrdinary (by rw [hform]; rfl) fun _ => hn.expectedType_element hform hkinds.1⟩
  | prefixExpression operator operand =>
    exact Context.forall_mem_give.2 fun c _ => hn.of_prefixExpression hform
  | _ =>
    refine Context.forall_mem_give.2 fun c _ => hn.of_isOrdinary (by rw [hform]; rfl) fun _ => ?_
    obtain ⟨id, span, staticType, form⟩ := n
    cases hform
    rfl

end Fits

/-! ### The rule reports what is marked -/

section Agreement

variable {h : Hierarchy} {links : Links} {root n : Node} {ctx : Context} {above : List Node}

/-- Below a node that fits, every node fits what it is told. -/
lemma exists_fits_of_mem_annotate (hdistinct : (root.preorder.map Node.id).Nodup)
    (hkinds : root.IsWellKinded) (hpath : root.IsPath n above) (hn : Fits h ctx n above) :
    ∀ p ∈ annotate ctx n, ∃ above, root.IsPath p.1 above ∧ Fits h p.2 p.1 above := by
  -- the induction follows the walk down, so the path to the node grows with it
  induction n using Node.induction generalizing ctx above with
  | step n ih =>
    have hmem := hpath.subset_preorder List.mem_cons_self
    intro p hp
    rw [annotate_eq, List.mem_cons] at hp
    rcases hp with rfl | hp
    · exact ⟨above, hpath, hn⟩
    · obtain ⟨q, hq, hp⟩ := List.mem_flatMap.1 hp
      have hchild := Context.mem_children_of_mem_pushed hq
      have hfits := hn.pushed (hkinds n hmem) (Node.nodup_children hdistinct hmem) q hq
      exact ih q.1 hchild (hpath.child hchild) hfits p hp

lemma wantsDouble_iff {role : Role} : role.wantsDouble h = true ↔
    (∃ t, role = .expression t ∧ IsCore h t "double") ∨
      ∃ t, role = .negated t ∧ IsCore h t "int" := by
  cases role <;> simp [Role.wantsDouble, isCoreClass_iff]

/-- The rule registers without a fault, and has one handler then, for integer literals. -/
lemma processorsFor_registryAlone [Machine] (h : Hierarchy) (file : TreeLint.Context)
    (links : Links) (reporter : Reporter) (m : Supertypes) :
    (RuleSet.buildRegistry [rule h] file links reporter m).1 = .ok () ∧
      ∀ kind, (RuleSet.registryAlone (rule h) file links reporter m).processorsFor kind =
        if kind = .integerLiteral then [⟨name, name, fun _ => checkLiteral h⟩] else [] := by
  have hkinds : ∀ k ∈ card.codes, ∃ code, k = .kind code :=
    List.forall_mem_singleton.2 ⟨_, rfl⟩
  have hregs : ∀ reg ∈ [(⟨.string NodeKind.integerLiteral.name, name,
      some (fun _ => checkLiteral h)⟩ : Registration)], reg.IsAccepted [card.name] :=
    List.forall_mem_singleton.2 ⟨⟨_, rfl⟩, ⟨_, rfl⟩, List.mem_singleton_self _⟩
  have hcard : (rule h).card = some card := rfl
  obtain ⟨hbuild, hprocessors⟩ :=
    RuleSet.processorsFor_registryAlone hcard hkinds rfl hregs file links reporter m
  refine ⟨hbuild, fun kind => ?_⟩
  rw [hprocessors]
  cases kind <;> rfl

/-- What the rule does on a node of a file when it has registered by itself. -/
def scripts [Machine] (h : Hierarchy) (file : TreeLint.Context) (links : Links)
    (reporter : Reporter) (m : Supertypes) (n : Node) : List Script :=
  ((RuleSet.registryAlone (rule h) file links reporter m).processorsFor n.kind).map fun p =>
    p.handler file (links.site n)

lemma scripts_eq [Machine] (h : Hierarchy) (file : TreeLint.Context) (links : Links)
    (reporter : Reporter) (m : Supertypes) (n : Node) :
    scripts h file links reporter m n =
      if n.kind = .integerLiteral then [checkLiteral h (links.site n)] else [] := by
  rw [scripts, (processorsFor_registryAlone h file links reporter m).2]
  split <;> rfl

/-- On an integer literal whose ancestors answer as its context says, the rule reports if the
literal is marked. -/
lemma checkLiteral_eq (hn : Fits h ctx n above) (hkind : n.kind = .integerLiteral) :
    (IsMarked h n ctx → checkLiteral h ⟨n, above⟩ = .reportOnce ⟨name, n.span, literalKind, []⟩) ∧
      (¬IsMarked h n ctx → checkLiteral h ⟨n, above⟩ = .done) := by
  have hmisplaced := hn.misplaced hkind
  obtain ⟨lexeme, value, hform⟩ := Node.form_eq_integerLiteral hkind
  have hmarked : IsMarked h n ctx ↔
      Double.represents value = .yes ∧ ctx.role.wantsDouble h = true := by
    rw [wantsDouble_iff, IsMarked]
    constructor
    · rintro ⟨lexeme', value', hform', hrest⟩
      rw [hform] at hform'
      cases hform'
      exact hrest
    · exact fun hrest => ⟨lexeme, value, hform, hrest⟩
  rw [hmarked]
  simp only [checkLiteral, hform, hmisplaced, Script.attempt]
  constructor
  · rintro ⟨hrepresents, hwants⟩
    rw [if_pos hrepresents, if_pos hwants]
  · intro hnot
    split
    · next hrepresents => rw [if_neg fun hwants => hnot ⟨hrepresents, hwants⟩]
    · rfl

/-- **The rule reports what is marked.**  Take a linked tree whose parts are of the kinds meant for
them, and push the expectations down from its root.  The rule registers without a fault, whatever
the file.  Every node of the tree is told something, and the rule reports an integer literal, at its
span and without arguments, if what it is told marks it; on every other node it does nothing. -/
theorem scripts_eq_marked [Machine] (h : Hierarchy) (links : Links) (root : Node)
    (hlinked : links.IsLinked root) (hkinds : root.IsWellKinded) (file : TreeLint.Context)
    (reporter : Reporter) (m : Supertypes) :
    (RuleSet.buildRegistry [rule h] file links reporter m).1 = .ok () ∧
    (annotate .start root).map Prod.fst = root.preorder ∧
      ∀ n ctx, (n, ctx) ∈ annotate .start root →
        (IsMarked h n ctx →
          scripts h file links reporter m n = [.reportOnce ⟨name, n.span, literalKind, []⟩]) ∧
        (¬IsMarked h n ctx → ∀ script ∈ scripts h file links reporter m n, script = .done) := by
  refine ⟨(processorsFor_registryAlone h file links reporter m).1, map_fst_annotate .start root,
    fun n ctx hmem => ?_⟩
  obtain ⟨above, hpath, hn⟩ :=
    exists_fits_of_mem_annotate hlinked.distinct hkinds .root (Fits.start h root) _ hmem
  have hsite : links.site n = ⟨n, above⟩ := by rw [Links.site, hlinked.ancestors_eq hpath]
  rw [scripts_eq, hsite]
  by_cases hkind : n.kind = .integerLiteral
  · obtain ⟨hreport, hdone⟩ := checkLiteral_eq hn hkind
    rw [if_pos hkind]
    exact ⟨fun hmarked => by rw [hreport hmarked],
      fun hnot script hscript => by rw [List.mem_singleton.1 hscript, hdone hnot]⟩
  · rw [if_neg hkind]
    refine ⟨?_, fun _ script hscript => nomatch hscript⟩
    rintro ⟨lexeme, value, hform, -⟩
    exact absurd (by rw [Node.kind, hform]; rfl) hkind

end Agreement

/-! ### A declaration -/

/-- The annotation `double`. -/
def oneType : Node := .mk 1 ⟨0, 6⟩ .unresolved (.namedType "double" [] (.ofClass 3))

/-- The integer `1`. -/
def oneLiteral : Node := .mk 3 ⟨11, 12⟩ .unresolved (.integerLiteral "1" (some 1))

/-- The variable `x` with this integer as its initial value. -/
def oneVariable : Node :=
  .mk 2 ⟨7, 12⟩ .unresolved (.variableDeclaration "x" (some oneLiteral) none)

/-- The declaration `double x = 1`. -/
def oneDeclaration : Node :=
  .mk 0 ⟨0, 12⟩ .unresolved (.variableDeclarationList none (some oneType) [oneVariable])

/-- The links of this declaration. -/
def oneLinks : Links :=
  ((((∅ : Links).insert 1 oneDeclaration).insert 2 oneDeclaration).insert 3 oneVariable)

lemma children_oneDeclaration :
    oneDeclaration.children = [oneType, oneVariable] ∧ oneType.children = [] ∧
      oneVariable.children = [oneLiteral] ∧ oneLiteral.children = [] :=
  ⟨rfl, rfl, rfl, rfl⟩

lemma addTree_oneDeclaration : (∅ : Links).addTree oneDeclaration = .ok oneLinks := by
  have hids : oneDeclaration.id = 0 ∧ oneType.id = 1 ∧ oneVariable.id = 2 ∧ oneLiteral.id = 3 :=
    ⟨rfl, rfl, rfl, rfl⟩
  simp [Links.addTree, Links.addBelow, Links.addChildren, children_oneDeclaration, hids, oneLinks]

lemma isWellKinded_oneDeclaration : oneDeclaration.IsWellKinded := by
  simp only [Node.IsWellKinded, Node.preorder_eq, children_oneDeclaration, List.flatMap_cons,
    List.flatMap_nil, List.append_nil, List.cons_append, List.nil_append, List.forall_mem_cons]
  refine ⟨⟨fun t ht => ?_, fun v hv => ?_⟩, fun t ht => (nomatch ht), fun e he => ?_, trivial,
    fun n hn => (nomatch hn)⟩
  · cases ht
    rfl
  · rw [List.mem_singleton.1 hv]
    rfl
  · cases he
    rfl

/-- The variable is told its annotation, and its initial value is told what the variable is. -/
lemma mem_annotate_oneDeclaration :
    (oneLiteral, ⟨.expression (.ofClass 3), .unresolved⟩) ∈ annotate .start oneDeclaration := by
  have hvariable : (oneVariable, ⟨.variable (.ofClass 3), .unresolved⟩) ∈
      Context.start.pushed oneDeclaration.form :=
    List.mem_append_right _ (List.mem_singleton.2 rfl)
  have hliteral : (oneLiteral, ⟨.expression (.ofClass 3), .unresolved⟩) ∈
      Context.pushed ⟨.variable (.ofClass 3), .unresolved⟩ oneVariable.form :=
    List.mem_singleton.2 rfl
  rw [annotate_eq]
  refine List.mem_cons_of_mem _ (List.mem_flatMap.2 ⟨_, hvariable, ?_⟩)
  rw [annotate_eq]
  refine List.mem_cons_of_mem _ (List.mem_flatMap.2 ⟨_, hliteral, ?_⟩)
  rw [annotate_eq]
  exact List.mem_cons_self

/-- A file with this declaration. -/
def oneFile : Tree where
  root := oneDeclaration
  path := "one.dart"
  text := none
  lineStarts := #[0]

/-- A strict reporter of this file. -/
def oneReporter : Reporter where
  tree := oneFile
  strict := true
  severities := []
  limit := none

attribute [local instance] Machine.small

theorem scripts_eq_marked_one :
    oneLinks.IsLinked oneDeclaration ∧ oneDeclaration.IsWellKinded ∧
      scripts Hierarchy.standard ⟨oneFile, []⟩ oneLinks oneReporter ⟨Hierarchy.standard, []⟩
        oneLiteral = [.reportOnce ⟨name, ⟨11, 12⟩, literalKind, []⟩] := by
  have hlinked : oneLinks.IsLinked oneDeclaration :=
    Links.isLinked_of_addTree Std.HashMap.getElem?_empty addTree_oneDeclaration
  have hkinds := isWellKinded_oneDeclaration
  obtain ⟨-, -, hscripts⟩ := scripts_eq_marked Hierarchy.standard oneLinks oneDeclaration hlinked
    hkinds ⟨oneFile, []⟩ oneReporter ⟨Hierarchy.standard, []⟩
  refine ⟨hlinked, hkinds, (hscripts oneLiteral _ mem_annotate_oneDeclaration).1 ?_⟩
  refine ⟨"1", some 1, rfl, by decide +kernel, .inl ⟨.ofClass 3, rfl, 3, [], ?_⟩⟩
  exact ⟨_, rfl, rfl, rfl, rfl⟩

end DoubleLiteral

end TreeLint
