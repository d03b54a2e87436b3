/-
What the rule against unsafe HTML reports.

The uses of an API that the rule is there to report are told without the rule, by the
shape of the tree and by what is known about the classes: `Flags`.  An assignment is
one if it may write to an attribute that is unsafe on its receiver, a call of a method
if the receiver may be of the class that declares it, and a call of a constructor if
what it creates is of such a class for certain.

The rule reports these uses and no others: `handlers_report_flagged`.
-/
import TreeLint.Proofs.Model.Reachability
import TreeLint.Proofs.Rule.Enrollment
import TreeLint.Proofs.Run.Settled
import TreeLint.Proofs.Syntax.Receiver
import TreeLint.Rules.UnsafeHtml
namespace TreeLint

namespace UnsafeHtml

/-! ### Unsafe uses -/

/-- Whether one gets from a class to one of some names in the library of HTML elements. -/
def ReachesAny (h : Hierarchy) (cls : ClassId) (names : List String) : Prop :=
  ∃ name ∈ names, h.ReachesNamed cls name htmlLibrary

/-- Whether nothing shows that a type is none of some classes. -/
def IsUnsafeFor (h : Hierarchy) (names : List String) (t : Ty) : Prop :=
  t = .unresolved ∨ t = .dynamic ∨
    ∃ cls arguments, t = .interface cls arguments ∧ ReachesAny h cls names

/-- The attributes that are unsafe to write, with the classes on which they are. -/
inductive UnsafeAttribute : String → List String → Prop
  | href : UnsafeAttribute "href" ["AnchorElement"]
  | src : UnsafeAttribute "src" ["EmbedElement", "IFrameElement", "ImageElement", "ScriptElement"]
  | srcdoc : UnsafeAttribute "srcdoc" ["IFrameElement"]

/-- The methods that are unsafe to call, with the class that declares each. -/
inductive UnsafeMethod : String → String → Prop
  | createFragment : UnsafeMethod "createFragment" "Element"
  | setInnerHtml : UnsafeMethod "setInnerHtml" "Element"
  | open : UnsafeMethod "open" "Window"

/-- A node is an unsafe use of an API: the kind of finding it is to be reported as, and the
arguments. -/
inductive Flags (h : Hierarchy) (root n : Node) : DiagnosticKind → List String → Prop
  /-- An assignment to a plain name, which is a member of a class. -/
  | ownAttribute {left e : Node} {operator p : String} {right : Option Node}
    {written : Element} {element : Option Element} {cls : ClassId} {names : List String}
    (hn : n.form = .assignmentExpression (some left) operator right (some written))
    (hleft : left.StripsTo e) (he : e.form = .simpleIdentifier p element)
    (hp : UnsafeAttribute p names) (hwritten : written.enclosing = some cls)
    (hcls : ReachesAny h cls names) :
    Flags h root n attributeKind [p]
  /-- An assignment to a property of a receiver. -/
  | propertyAttribute {left e property : Node} {operator p : String}
    {right target receiver : Option Node} {written element : Option Element} {isCascaded : Bool}
    {names : List String} {t : Ty}
    (hn : n.form = .assignmentExpression (some left) operator right written)
    (hleft : left.StripsTo e) (he : e.form = .propertyAccess target (some property) isCascaded)
    (hproperty : property.form = .simpleIdentifier p element) (hp : UnsafeAttribute p names)
    (hreceiver : Node.IsReceiver root e target isCascaded receiver)
    (ht : Node.HasStaticTypeOf receiver t) (hrisk : IsUnsafeFor h names t) :
    Flags h root n attributeKind [p]
  /-- An assignment to a name after a prefix. -/
  | prefixedAttribute {left e identifier : Node} {operator p : String}
    {right qualifier : Option Node} {written element : Option Element} {names : List String}
    {t : Ty}
    (hn : n.form = .assignmentExpression (some left) operator right written)
    (hleft : left.StripsTo e) (he : e.form = .prefixedIdentifier qualifier (some identifier))
    (hidentifier : identifier.form = .simpleIdentifier p element) (hp : UnsafeAttribute p names)
    (ht : Node.HasStaticTypeOf qualifier t) (hrisk : IsUnsafeFor h names t) :
    Flags h root n attributeKind [p]
  /-- The creation of a document fragment from HTML. -/
  | fragment {keyword : Option String} {type arguments : Option Node} {constructor : Node}
    {element created : Option Element} {cls : ClassId} {typeArguments : List Ty}
    (hn : n.form = .instanceCreationExpression keyword type (some constructor) arguments created)
    (hconstructor : constructor.form = .simpleIdentifier "html" element)
    (ht : n.HasStaticType (.interface cls typeArguments))
    (hcls : ReachesAny h cls ["DocumentFragment"]) :
    Flags h root n constructorKind ["html", "DocumentFragment"]
  /-- The creation of any other element from HTML. -/
  | element {keyword : Option String} {type arguments : Option Node} {constructor : Node}
    {element created : Option Element} {cls : ClassId} {typeArguments : List Ty}
    (hn : n.form = .instanceCreationExpression keyword type (some constructor) arguments created)
    (hconstructor : constructor.form = .simpleIdentifier "html" element)
    (ht : n.HasStaticType (.interface cls typeArguments))
    (hnot : ¬ ReachesAny h cls ["DocumentFragment"]) (hcls : ReachesAny h cls ["Element"]) :
    Flags h root n constructorKind ["html", "Element"]
  /-- The call of a method of a receiver. -/
  | method {target arguments : Option Node} {method receiver : Node} {isCascaded : Bool}
    {m cls : String} {element : Option Element} {t : Ty}
    (hn : n.form = .methodInvocation target (some method) arguments isCascaded)
    (hmethod : method.form = .simpleIdentifier m element) (hm : UnsafeMethod m cls)
    (hreceiver : Node.IsReceiver root n target isCascaded (some receiver))
    (ht : receiver.HasStaticType t) (hrisk : IsUnsafeFor h [cls] t) :
    Flags h root n methodKind [m, cls]
  /-- The call of a method without a receiver, which is a member of a class. -/
  | ownMethod {target arguments : Option Node} {method : Node} {isCascaded : Bool}
    {m cls : String} {element : Element} {enclosing : ClassId}
    (hn : n.form = .methodInvocation target (some method) arguments isCascaded)
    (hmethod : method.form = .simpleIdentifier m (some element)) (hm : UnsafeMethod m cls)
    (hreceiver : Node.IsReceiver root n target isCascaded none)
    (henclosing : element.enclosing = some enclosing) (hcls : ReachesAny h enclosing [cls]) :
    Flags h root n methodKind [m, cls]

/-! ### The parts of the handlers -/

section Parts

variable {h : Hierarchy} {links : Links} {n : Node} {t : Ty} {names : List String}

/-- Whether the rule takes a type for an unsafe one. -/
def isUnsafe (h : Hierarchy) (names : List String) (t : Ty) : Bool :=
  h.classify t names htmlLibrary != .no

@[simp] lemma settled_reportAt (code : DiagnosticKind) (arguments : List String) :
    (reportAt n code arguments).settled h links = reportAt n code arguments :=
  Script.settled_reportOnce _

@[simp] lemma settled_whenUnsafe (action : Script) :
    (whenUnsafe t names action).settled h links =
      if isUnsafe h names t then action.settled h links else .done := by
  rw [whenUnsafe, Script.settled_classify, isUnsafe]
  cases h.classify t names htmlLibrary <;> rfl

lemma attributeClasses_of_unsafeAttribute {p : String} (hp : UnsafeAttribute p names) :
    attributeClasses p = names := by
  cases hp <;> rfl

lemma unsafeAttribute_of_ne_nil {p : String} (hp : attributeClasses p ≠ []) :
    UnsafeAttribute p (attributeClasses p) := by
  unfold attributeClasses at hp ⊢
  split
  · exact .href
  · exact .src
  · exact .srcdoc
  · next hhref hsrc hsrcdoc => simp at hp

lemma methodClass?_eq_some_iff {m cls : String} :
    methodClass? m = some cls ↔ UnsafeMethod m cls := by
  constructor
  · intro hm
    unfold methodClass? at hm
    split at hm <;> cases hm
    · exact .createFragment
    · exact .setInnerHtml
    · exact .open
  · intro hm
    cases hm <;> rfl

lemma settled_checkProperty {p : String} (hp : UnsafeAttribute p names) :
    (checkProperty n t p).settled h links =
      if isUnsafe h names t then reportAt n attributeKind [p] else .done := by
  have hclasses := attributeClasses_of_unsafeAttribute hp
  have hne : names ≠ [] := by cases hp <;> exact List.cons_ne_nil _ _
  rw [checkProperty, hclasses]
  split
  · exact absurd rfl hne
  · rw [settled_whenUnsafe, settled_reportAt]

/-- The rule reports nothing but an unsafe write. -/
lemma settled_checkProperty_cases (h : Hierarchy) (links : Links) (n : Node) (t : Ty)
    (p : String) :
    (checkProperty n t p).settled h links = .done ∨
      ∃ names, UnsafeAttribute p names ∧ isUnsafe h names t = true ∧
        (checkProperty n t p).settled h links = reportAt n attributeKind [p] := by
  by_cases hp : attributeClasses p = []
  · rw [checkProperty, hp]
    exact .inl rfl
  · have hattribute := unsafeAttribute_of_ne_nil hp
    rw [settled_checkProperty hattribute]
    by_cases hrisk : isUnsafe h (attributeClasses p) t = true
    · exact .inr ⟨_, hattribute, hrisk, if_pos hrisk⟩
    · exact .inl (if_neg hrisk)

/-- Without malformed classes a type extends a class exactly if the class is reached. -/
lemma extends_iff (hwell : ∀ c decl, h.get? c = some decl → decl.IsWellFormed) {cls : ClassId}
    {arguments : List Ty} {name : String} :
    h.extends (.interface cls arguments) name htmlLibrary = true ↔
      h.ReachesNamed cls name htmlLibrary :=
  Hierarchy.search_eq_true_iff fun c decl _ hget => hwell c decl hget

lemma isUnsafe_iff (hwell : ∀ c decl, h.get? c = some decl → decl.IsWellFormed) :
    isUnsafe h names t = true ↔ IsUnsafeFor h names t := by
  unfold isUnsafe Hierarchy.classify IsUnsafeFor
  cases t with
  | unresolved => simp
  | dynamic => simp
  | interface cls arguments =>
    have hany : names.any (h.extends (.interface cls arguments) · htmlLibrary) = true ↔
        ReachesAny h cls names := by
      simp only [List.any_eq_true, extends_iff hwell, ReachesAny]
    rw [Ty.isVague_interface, if_neg Bool.false_ne_true]
    cases hextends : names.any (h.extends (.interface cls arguments) · htmlLibrary) with
    | true => simp [Answer.ofBool, ← hany, hextends]
    | false => simp [Answer.ofBool, ← hany, hextends]

lemma isUnsafe_ofClass_iff (hwell : ∀ c decl, h.get? c = some decl → decl.IsWellFormed)
    {cls : ClassId} : isUnsafe h names (.ofClass cls) = true ↔ ReachesAny h cls names := by
  rw [isUnsafe_iff hwell, IsUnsafeFor, Ty.ofClass]
  constructor
  · rintro (ht | ht | ⟨cls', arguments, ht, hcls⟩)
    · cases ht
    · cases ht
    · cases ht
      exact hcls
  · exact fun hcls => .inr (.inr ⟨cls, [], rfl, hcls⟩)

end Parts

/-! ### Assignments -/

section Uses

variable {h : Hierarchy} {links : Links} {root n e : Node}

lemma name_of_form {part : Node} {p : String} {element : Option Element}
    (hpart : part.form = .simpleIdentifier p element) : part.name = .ok p := by
  rw [Node.name, Node.name?, hpart]

lemma settled_checkPart {receiver : Option Node} {part : Node} {t : Ty} {p : String}
    {element : Option Element} (ht : Node.HasStaticTypeOf receiver t)
    (hreceiver : ∀ m ∈ receiver, m.isExpression = true ∧ m.IsWellKinded)
    (hpart : part.form = .simpleIdentifier p element) :
    (checkPart n receiver part).settled h links = (checkProperty n t p).settled h links := by
  rw [checkPart, ht.resolvedTypeOf_eq hreceiver, Script.attempt_ok, name_of_form hpart,
    Script.attempt_ok]

/-- The target of a property is an expression of the tree. -/
lemma isExpression_of_propertyAccess {target property : Option Node} {isCascaded : Bool}
    (he : e.form = .propertyAccess target property isCascaded) (hkinds : e.IsWellKinded) :
    ∀ m ∈ target, m.isExpression = true ∧ m.IsWellKinded := by
  have hdeclared := hkinds.declared
  rw [he] at hdeclared
  intro m hm
  refine ⟨hdeclared.1 m hm, hkinds.child ?_⟩
  rw [Node.children, he]
  exact List.mem_append_left _ (Option.mem_toList.2 hm)

lemma settled_checkTarget_propertyAccess {target receiver : Option Node} {property : Node}
    {isCascaded : Bool} {p : String} {written element : Option Element} {t : Ty}
    (hlinked : links.IsLinked root) (hkinds : root.IsWellKinded) (hmem : e ∈ root.preorder)
    (he : e.form = .propertyAccess target (some property) isCascaded)
    (hproperty : property.form = .simpleIdentifier p element)
    (hreceiver : Node.IsReceiver root e target isCascaded receiver)
    (ht : Node.HasStaticTypeOf receiver t) :
    (checkTarget n written e).settled h links = (checkProperty n t p).settled h links := by
  have htarget := isExpression_of_propertyAccess he (hkinds.of_mem hmem)
  have hexpression := hreceiver.isExpression hkinds htarget
  have heq := hreceiver.eq hlinked
  rw [checkTarget, he]
  cases isCascaded with
  | true =>
    rw [if_pos rfl] at heq
    simp only [if_true, Script.settled_locate, Links.ancestors_site, heq]
    exact settled_checkPart ht hexpression hproperty
  | false =>
    rw [if_neg Bool.false_ne_true] at heq
    simp only [Bool.false_eq_true, if_false, heq]
    exact settled_checkPart ht hexpression hproperty

lemma settled_checkTarget_prefixedIdentifier {qualifier : Option Node} {identifier : Node}
    {p : String} {written element : Option Element} {t : Ty} (hkinds : e.IsWellKinded)
    (he : e.form = .prefixedIdentifier qualifier (some identifier))
    (hidentifier : identifier.form = .simpleIdentifier p element)
    (ht : Node.HasStaticTypeOf qualifier t) :
    (checkTarget n written e).settled h links = (checkProperty n t p).settled h links := by
  have hdeclared := hkinds.declared
  rw [he] at hdeclared
  rw [checkTarget, he]
  refine settled_checkPart ht (fun m hm => ⟨?_, hkinds.child ?_⟩) hidentifier
  · rw [Node.isExpression, hdeclared.1 m hm]
    rfl
  · rw [Node.children, he]
    exact List.mem_append_left _ (Option.mem_toList.2 hm)

/-- The left side of an assignment without its parentheses. -/
lemma settled_checkAssignment {left : Node} {operator : String} {right : Option Node}
    {written : Option Element} (hkinds : n.IsWellKinded)
    (hn : n.form = .assignmentExpression (some left) operator right written) :
    (checkAssignment (links.site n)).settled h links =
      (checkTarget n written left.unparenthesized).settled h links := by
  have hdeclared := hkinds.declared
  rw [hn] at hdeclared
  have hleft : left.isExpression = true := hdeclared.1 left rfl
  simp only [checkAssignment, Links.node_site, hn, hleft, if_true]

/-- The left side of an assignment stands below it. -/
lemma mem_preorder_of_stripsTo {left : Node} {operator : String} {right : Option Node}
    {written : Option Element} (hmem : n ∈ root.preorder)
    (hn : n.form = .assignmentExpression (some left) operator right written)
    (hleft : left.StripsTo e) : e ∈ root.preorder := by
  refine hleft.mem_preorder (Node.mem_preorder_of_mem_children hmem ?_)
  rw [Node.children, hn]
  exact List.mem_append_left _ (List.mem_singleton.2 rfl)

/-- Whether a script does nothing, or makes the report of an unsafe use. -/
def IsSound (h : Hierarchy) (root n : Node) (script : Script) : Prop :=
  script = .done ∨
    ∃ code arguments, Flags h root n code arguments ∧ script = reportAt n code arguments

lemma isSound_checkProperty {t : Ty} {p : String}
    (hflags : ∀ names, UnsafeAttribute p names → isUnsafe h names t = true →
      Flags h root n attributeKind [p]) :
    IsSound h root n ((checkProperty n t p).settled h links) := by
  rcases settled_checkProperty_cases h links n t p with
    hdone | ⟨names, hp, hrisk, hreport⟩
  · exact .inl hdone
  · exact .inr ⟨attributeKind, [p], hflags names hp hrisk, hreport⟩

/-- An assignment is reported only if it is an unsafe use. -/
lemma isSound_checkAssignment (hwell : ∀ c decl, h.get? c = some decl → decl.IsWellFormed)
    (hlinked : links.IsLinked root) (hkinds : root.IsWellKinded) (hmem : n ∈ root.preorder) :
    IsSound h root n ((checkAssignment (links.site n)).settled h links) := by
  cases hn : n.form with
  | assignmentExpression left operator right written =>
    rcases left with _ | left
    · simp only [checkAssignment, Links.node_site, hn]
      exact .inl rfl
    have hleft := left.stripsTo_unparenthesized
    have hemem := mem_preorder_of_stripsTo hmem hn hleft
    have hekinds := hkinds.of_mem hemem
    have hdeclared := hekinds.declared
    rw [settled_checkAssignment (hkinds.of_mem hmem) hn]
    generalize left.unparenthesized = e at hleft hemem hekinds hdeclared
    -- one case for each shape of the left side that may be an attribute
    cases he : e.form with
    | simpleIdentifier p element =>
      rw [checkTarget, he]
      rcases hwritten : written.bind Element.enclosingType with _ | t
      · exact .inl rfl
      · obtain ⟨w, rfl, hw⟩ := Option.bind_eq_some_iff.1 hwritten
        obtain ⟨cls, hcls, rfl⟩ := Option.map_eq_some_iff.1 hw
        exact isSound_checkProperty fun names hp hrisk =>
          .ownAttribute hn hleft he hp hcls ((isUnsafe_ofClass_iff hwell).1 hrisk)
    | propertyAccess target property isCascaded =>
      rcases property with _ | property
      · rw [checkTarget, he]
        exact .inl rfl
      · rw [he] at hdeclared
        obtain ⟨p, element, hproperty⟩ := Node.form_eq_simpleIdentifier (hdeclared.2 property rfl)
        obtain ⟨receiver, hreceiver⟩ := Node.exists_isReceiver hemem target isCascaded
        obtain ⟨t, ht⟩ := Node.exists_hasStaticTypeOf receiver
        rw [settled_checkTarget_propertyAccess hlinked hkinds hemem he hproperty hreceiver ht]
        exact isSound_checkProperty fun names hp hrisk =>
          .propertyAttribute hn hleft he hproperty hp hreceiver ht ((isUnsafe_iff hwell).1 hrisk)
    | prefixedIdentifier qualifier identifier =>
      rcases identifier with _ | identifier
      · rw [checkTarget, he]
        exact .inl rfl
      · rw [he] at hdeclared
        obtain ⟨p, element, hidentifier⟩ :=
          Node.form_eq_simpleIdentifier (hdeclared.2 identifier rfl)
        obtain ⟨t, ht⟩ := Node.exists_hasStaticTypeOf qualifier
        rw [settled_checkTarget_prefixedIdentifier hekinds he hidentifier ht]
        exact isSound_checkProperty fun names hp hrisk =>
          .prefixedAttribute hn hleft he hidentifier hp ht ((isUnsafe_iff hwell).1 hrisk)
    | _ =>
      rw [checkTarget, he]
      exact .inl rfl
  | _ =>
    simp only [checkAssignment, Links.node_site, hn]
    exact .inl rfl

/-! ### Calls of constructors -/

lemma settled_checkCreation {keyword : Option String} {type arguments : Option Node}
    {constructor : Node} {element created : Option Element} {p : String} {t : Ty}
    (hkinds : n.IsWellKinded)
    (hn : n.form = .instanceCreationExpression keyword type (some constructor) arguments created)
    (hconstructor : constructor.form = .simpleIdentifier p element) (ht : n.HasStaticType t) :
    (checkCreation (links.site n)).settled h links =
      if p = constructorName ∧ t ≠ .unresolved
      then (checkCreated n t constructorClasses).settled h links else .done := by
  have hexpression : n.isExpression = true := by
    rw [Node.isExpression, Node.kind, hn]
    rfl
  simp only [checkCreation, Links.node_site, hn, name_of_form hconstructor, Script.attempt_ok,
    ht.resolvedType_eq hexpression hkinds]
  by_cases hp : p = constructorName
  · by_cases htype : t = .unresolved <;> simp [hp, htype]
  · simp [hp]

/-- Of what a call creates, the first class that is reached is reported. -/
lemma settled_checkCreated (hwell : ∀ c decl, h.get? c = some decl → decl.IsWellFormed)
    (links : Links) (n : Node) (cls : ClassId) (typeArguments : List Ty) :
    (ReachesAny h cls ["DocumentFragment"] →
      (checkCreated n (.interface cls typeArguments) constructorClasses).settled h links =
        reportAt n constructorKind ["html", "DocumentFragment"]) ∧
    (¬ ReachesAny h cls ["DocumentFragment"] → ReachesAny h cls ["Element"] →
      (checkCreated n (.interface cls typeArguments) constructorClasses).settled h links =
        reportAt n constructorKind ["html", "Element"]) ∧
    (¬ ReachesAny h cls ["DocumentFragment"] → ¬ ReachesAny h cls ["Element"] →
      (checkCreated n (.interface cls typeArguments) constructorClasses).settled h links =
        .done) := by
  have hany : ∀ name, ReachesAny h cls [name] ↔
      h.extends (.interface cls typeArguments) name htmlLibrary = true := by
    intro name
    rw [extends_iff hwell, ReachesAny]
    simp
  simp only [hany, constructorClasses, checkCreated, Script.settled_extendsClass]
  refine ⟨fun hfragment => ?_, fun hnot helement => ?_, fun hnot hnot' => ?_⟩
  · simp [hfragment, constructorName]
  · simp [hnot, helement, constructorName]
  · simp [hnot, hnot']

/-- A call of a constructor is reported only if it is an unsafe use. -/
lemma isSound_checkCreation (hwell : ∀ c decl, h.get? c = some decl → decl.IsWellFormed)
    (hkinds : n.IsWellKinded) :
    IsSound h root n ((checkCreation (links.site n)).settled h links) := by
  cases hn : n.form with
  | instanceCreationExpression keyword type constructor arguments created =>
    rcases constructor with _ | constructor
    · simp only [checkCreation, Links.node_site, hn]
      exact .inl rfl
    have hdeclared := hkinds.declared
    rw [hn] at hdeclared
    obtain ⟨p, element, hconstructor⟩ :=
      Node.form_eq_simpleIdentifier (hdeclared.2.1 constructor rfl)
    obtain ⟨t, ht⟩ := n.exists_hasStaticType
    rw [settled_checkCreation hkinds hn hconstructor ht]
    by_cases hp : p = constructorName ∧ t ≠ .unresolved
    · rw [if_pos hp]
      obtain ⟨rfl, hknown⟩ := hp
      cases t with
      | unresolved => exact absurd rfl hknown
      | dynamic => exact .inl rfl
      | interface cls typeArguments =>
        obtain ⟨hfragment, helement, hneither⟩ :=
          settled_checkCreated hwell links n cls typeArguments
        by_cases hreaches : ReachesAny h cls ["DocumentFragment"]
        · exact .inr ⟨_, _, .fragment hn hconstructor ht hreaches, hfragment hreaches⟩
        · by_cases hreaches' : ReachesAny h cls ["Element"]
          · exact .inr ⟨_, _, .element hn hconstructor ht hreaches hreaches',
              helement hreaches hreaches'⟩
          · exact .inl (hneither hreaches hreaches')
    · rw [if_neg hp]
      exact .inl rfl
  | _ =>
    simp only [checkCreation, Links.node_site, hn]
    exact .inl rfl

/-! ### Calls of methods -/

/-- The target of a call of a method is an expression of the tree. -/
lemma isExpression_of_methodInvocation {target method arguments : Option Node} {isCascaded : Bool}
    (hn : n.form = .methodInvocation target method arguments isCascaded)
    (hkinds : n.IsWellKinded) : ∀ m ∈ target, m.isExpression = true ∧ m.IsWellKinded := by
  have hdeclared := hkinds.declared
  rw [hn] at hdeclared
  intro m hm
  refine ⟨hdeclared.1 m hm, hkinds.child ?_⟩
  rw [Node.children, hn]
  exact List.mem_append_left _ (List.mem_append_left _ (Option.mem_toList.2 hm))

lemma settled_checkInvocation {target arguments receiver : Option Node} {method : Node}
    {isCascaded : Bool} {m cls : String} {element : Option Element}
    (hlinked : links.IsLinked root)
    (hn : n.form = .methodInvocation target (some method) arguments isCascaded)
    (hmethod : method.form = .simpleIdentifier m element) (hm : methodClass? m = some cls)
    (hreceiver : Node.IsReceiver root n target isCascaded receiver) :
    (checkInvocation (links.site n)).settled h links =
      (checkReceiver receiver method cls (reportAt n methodKind [m, cls])).settled h links := by
  simp only [checkInvocation, Links.node_site, Links.ancestors_site, hn, name_of_form hmethod,
    Script.attempt_ok, hm, hreceiver.eq hlinked]

lemma settled_checkReceiver_some {receiver method : Node} {cls : String} {t : Ty}
    {action : Script} (hexpression : receiver.isExpression = true) (hkinds : receiver.IsWellKinded)
    (ht : receiver.HasStaticType t) :
    (checkReceiver (some receiver) method cls action).settled h links =
      if isUnsafe h [cls] t then action.settled h links else .done := by
  rw [checkReceiver, ht.resolvedType_eq hexpression hkinds, Script.attempt_ok, settled_whenUnsafe]

lemma settled_checkReceiver_none {method : Node} {m cls : String} {element : Option Element}
    {action : Script} (hmethod : method.form = .simpleIdentifier m element) :
    (checkReceiver none method cls action).settled h links =
      match element.bind Element.enclosingType with
      | some t => if isUnsafe h [cls] t then action.settled h links else .done
      | none => .done := by
  have hreferent : method.referent = .ok element := by rw [Node.referent, hmethod]
  rw [checkReceiver, hreferent, Script.attempt_ok]
  rcases element.bind Element.enclosingType with _ | t
  · rfl
  · exact settled_whenUnsafe _

/-- A call of a method is reported only if it is an unsafe use. -/
lemma isSound_checkInvocation (hwell : ∀ c decl, h.get? c = some decl → decl.IsWellFormed)
    (hlinked : links.IsLinked root) (hkinds : root.IsWellKinded) (hmem : n ∈ root.preorder) :
    IsSound h root n ((checkInvocation (links.site n)).settled h links) := by
  cases hn : n.form with
  | methodInvocation target method arguments isCascaded =>
    rcases method with _ | method
    · simp only [checkInvocation, Links.node_site, hn]
      exact .inl rfl
    have hdeclared := (hkinds.of_mem hmem).declared
    rw [hn] at hdeclared
    obtain ⟨m, element, hmethod⟩ := Node.form_eq_simpleIdentifier (hdeclared.2.1 method rfl)
    rcases hm : methodClass? m with _ | cls
    · simp only [checkInvocation, Links.node_site, hn, name_of_form hmethod, Script.attempt_ok, hm]
      exact .inl rfl
    obtain ⟨receiver, hreceiver⟩ := Node.exists_isReceiver hmem target isCascaded
    have hunsafeMethod := methodClass?_eq_some_iff.1 hm
    rw [settled_checkInvocation hlinked hn hmethod hm hreceiver]
    rcases receiver with _ | receiver
    · rw [settled_checkReceiver_none hmethod]
      rcases henclosing : element.bind Element.enclosingType with _ | t
      · exact .inl rfl
      obtain ⟨member, rfl, hmember⟩ := Option.bind_eq_some_iff.1 henclosing
      obtain ⟨enclosing, hclass, rfl⟩ := Option.map_eq_some_iff.1 hmember
      by_cases hrisk : isUnsafe h [cls] (.ofClass enclosing) = true
      · simp only [if_pos hrisk, settled_reportAt]
        exact .inr ⟨_, _, .ownMethod hn hmethod hunsafeMethod hreceiver hclass
          ((isUnsafe_ofClass_iff hwell).1 hrisk), rfl⟩
      · simp only [if_neg hrisk]
        exact .inl rfl
    · obtain ⟨t, ht⟩ := receiver.exists_hasStaticType
      obtain ⟨hexpression, hreceiverKinds⟩ := hreceiver.isExpression hkinds
        (isExpression_of_methodInvocation hn (hkinds.of_mem hmem)) receiver rfl
      rw [settled_checkReceiver_some hexpression hreceiverKinds ht]
      by_cases hrisk : isUnsafe h [cls] t = true
      · rw [if_pos hrisk, settled_reportAt]
        exact .inr ⟨_, _, .method hn hmethod hunsafeMethod hreceiver ht
          ((isUnsafe_iff hwell).1 hrisk), rfl⟩
      · rw [if_neg hrisk]
        exact .inl rfl
  | _ =>
    simp only [checkInvocation, Links.node_site, hn]
    exact .inl rfl

/-! ### The rule -/

/-- What the handler of the rule does for a form. -/
def handlerFor? : Form → Option (Site → Script)
  | .assignmentExpression .. => some checkAssignment
  | .instanceCreationExpression .. => some checkCreation
  | .methodInvocation .. => some checkInvocation
  | _ => none

/-- The rule registers without a fault, and has these handlers then. -/
lemma processorsFor_registryAlone [Machine] (context : Context) (links : Links)
    (reporter : Reporter) (m : Supertypes) :
    (RuleSet.buildRegistry [rule] context links reporter m).1 = .ok () ∧
      ∀ kind, (RuleSet.registryAlone rule context links reporter m).processorsFor kind =
        registrations.filterMap (Registration.processor? name kind) := by
  have hkinds : ∀ k ∈ card.codes, ∃ code, k = .kind code := by
    simp only [card, List.forall_mem_cons]
    exact ⟨⟨_, rfl⟩, ⟨_, rfl⟩, ⟨_, rfl⟩, nofun⟩
  have hregs : ∀ reg ∈ registrations, reg.IsAccepted [card.name] := by
    simp only [registrations, List.forall_mem_cons]
    exact ⟨⟨⟨_, rfl⟩, ⟨_, rfl⟩, List.mem_singleton_self _⟩,
      ⟨⟨_, rfl⟩, ⟨_, rfl⟩, List.mem_singleton_self _⟩,
      ⟨⟨_, rfl⟩, ⟨_, rfl⟩, List.mem_singleton_self _⟩, nofun⟩
  exact RuleSet.processorsFor_registryAlone rfl hkinds rfl hregs context links reporter m

lemma map_handler_registrations (context : Context) (n : Node) :
    (registrations.filterMap (Registration.processor? name n.kind)).map
      (fun p => p.handler context) = (handlerFor? n.form).toList := by
  rw [Node.kind]
  cases n.form <;> rfl

lemma settled_checkProperty_of_unsafe {t : Ty} {names : List String} {p : String}
    (hp : UnsafeAttribute p names) (hrisk : isUnsafe h names t = true) :
    (checkProperty n t p).settled h links = reportAt n attributeKind [p] := by
  rw [settled_checkProperty hp, if_pos hrisk]

/-- Every unsafe use is reported. -/
lemma settled_of_flags (hwell : ∀ c decl, h.get? c = some decl → decl.IsWellFormed)
    (hlinked : links.IsLinked root) (hkinds : root.IsWellKinded) (hmem : n ∈ root.preorder)
    {code : DiagnosticKind} {arguments : List String} (hflags : Flags h root n code arguments) :
    ∃ handler, handlerFor? n.form = some handler ∧
      (handler (links.site n)).settled h links = reportAt n code arguments := by
  have hnkinds := hkinds.of_mem hmem
  cases hflags with
  | ownAttribute hn hleft he hp hwritten hcls =>
    refine ⟨checkAssignment, by rw [hn]; rfl, ?_⟩
    have hbare := hleft.unparenthesized_eq fun m hm => by rw [Node.Encloses, he] at hm; cases hm
    rw [settled_checkAssignment hnkinds hn, hbare, checkTarget, he]
    simp only [Option.bind_some, Element.enclosingType, hwritten, Option.map_some]
    exact settled_checkProperty_of_unsafe hp ((isUnsafe_ofClass_iff hwell).2 hcls)
  | propertyAttribute hn hleft he hproperty hp hreceiver ht hrisk =>
    refine ⟨checkAssignment, by rw [hn]; rfl, ?_⟩
    have hbare := hleft.unparenthesized_eq fun m hm => by rw [Node.Encloses, he] at hm; cases hm
    have hemem := mem_preorder_of_stripsTo hmem hn hleft
    rw [settled_checkAssignment hnkinds hn, hbare,
      settled_checkTarget_propertyAccess hlinked hkinds hemem he hproperty hreceiver ht]
    exact settled_checkProperty_of_unsafe hp ((isUnsafe_iff hwell).2 hrisk)
  | prefixedAttribute hn hleft he hidentifier hp ht hrisk =>
    refine ⟨checkAssignment, by rw [hn]; rfl, ?_⟩
    have hbare := hleft.unparenthesized_eq fun m hm => by rw [Node.Encloses, he] at hm; cases hm
    have hekinds := hkinds.of_mem (mem_preorder_of_stripsTo hmem hn hleft)
    rw [settled_checkAssignment hnkinds hn, hbare,
      settled_checkTarget_prefixedIdentifier hekinds he hidentifier ht]
    exact settled_checkProperty_of_unsafe hp ((isUnsafe_iff hwell).2 hrisk)
  | @fragment _ _ _ _ _ _ cls typeArguments hn hconstructor ht hcls =>
    refine ⟨checkCreation, by rw [hn]; rfl, ?_⟩
    rw [settled_checkCreation hnkinds hn hconstructor ht, if_pos ⟨rfl, by simp⟩]
    exact (settled_checkCreated hwell links n cls typeArguments).1 hcls
  | @element _ _ _ _ _ _ cls typeArguments hn hconstructor ht hnot hcls =>
    refine ⟨checkCreation, by rw [hn]; rfl, ?_⟩
    rw [settled_checkCreation hnkinds hn hconstructor ht, if_pos ⟨rfl, by simp⟩]
    exact (settled_checkCreated hwell links n cls typeArguments).2.1 hnot hcls
  | method hn hmethod hm hreceiver ht hrisk =>
    refine ⟨checkInvocation, by rw [hn]; rfl, ?_⟩
    obtain ⟨hexpression, hreceiverKinds⟩ := hreceiver.isExpression hkinds
      (isExpression_of_methodInvocation hn hnkinds) _ rfl
    rw [settled_checkInvocation hlinked hn hmethod (methodClass?_eq_some_iff.2 hm) hreceiver,
      settled_checkReceiver_some hexpression hreceiverKinds ht,
      if_pos ((isUnsafe_iff hwell).2 hrisk), settled_reportAt]
  | ownMethod hn hmethod hm hreceiver henclosing hcls =>
    refine ⟨checkInvocation, by rw [hn]; rfl, ?_⟩
    rw [settled_checkInvocation hlinked hn hmethod (methodClass?_eq_some_iff.2 hm) hreceiver,
      settled_checkReceiver_none hmethod]
    simp only [Option.bind_some, Element.enclosingType, henclosing, Option.map_some]
    rw [if_pos ((isUnsafe_ofClass_iff hwell).2 hcls), settled_reportAt]

/-- Nothing but an unsafe use is reported. -/
lemma isSound_of_handlerFor? (hwell : ∀ c decl, h.get? c = some decl → decl.IsWellFormed)
    (hlinked : links.IsLinked root) (hkinds : root.IsWellKinded) (hmem : n ∈ root.preorder)
    {handler : Site → Script} (hhandler : handlerFor? n.form = some handler) :
    IsSound h root n ((handler (links.site n)).settled h links) := by
  unfold handlerFor? at hhandler
  split at hhandler <;> cases hhandler
  · exact isSound_checkAssignment hwell hlinked hkinds hmem
  · exact isSound_checkCreation hwell (hkinds.of_mem hmem)
  · exact isSound_checkInvocation hwell hlinked hkinds hmem

/-- **The rule reports the unsafe uses, and nothing else.**  Take a linked tree whose parts are of
the kinds meant for them, and classes none of which is malformed.  The rule registers without a
fault, whatever the file.  On a node that is an unsafe use it has one handler then, and in every
session that remembers nothing wrong the handler makes the report of this use, at the span of the
node, and lets its fault through.  On any other node the handlers of the rule, if it has any, do
nothing. -/
theorem handlers_report_flagged [Machine] (h : Hierarchy) (links : Links) (root : Node)
    (hwell : ∀ c decl, h.get? c = some decl → decl.IsWellFormed) (hlinked : links.IsLinked root)
    (hkinds : root.IsWellKinded) (context : Context) (reporter : Reporter) (m : Supertypes) :
    (RuleSet.buildRegistry [rule] context links reporter m).1 = .ok () ∧
    ∀ n ∈ root.preorder,
      (∀ code arguments, Flags h root n code arguments →
        ∃ p, (RuleSet.registryAlone rule context links reporter m).processorsFor n.kind = [p] ∧
          ∀ s : Session, s.supertypes.Remembers h →
            (p.handler context (links.site n)).events p.owner links s =
              (Script.reportOnce ⟨name, n.span, code, arguments.map .string⟩).events p.owner links
                s) ∧
      ((∀ code arguments, ¬ Flags h root n code arguments) →
        ∀ p ∈ (RuleSet.registryAlone rule context links reporter m).processorsFor n.kind,
          ∀ s : Session, s.supertypes.Remembers h →
            (p.handler context (links.site n)).events p.owner links s = []) := by
  obtain ⟨hbuild, hregistered⟩ := processorsFor_registryAlone context links reporter m
  refine ⟨hbuild, fun n hmem => ?_⟩
  rw [hregistered]
  have hprocessors := map_handler_registrations context n
  constructor
  · intro code arguments hflags
    obtain ⟨handler, hhandler, hsettled⟩ := settled_of_flags hwell hlinked hkinds hmem hflags
    rw [hhandler, Option.toList_some, List.map_eq_singleton_iff] at hprocessors
    obtain ⟨p, hp, rfl⟩ := hprocessors
    refine ⟨p, hp, fun s hs => ?_⟩
    rw [← Script.events_settled _ _ hs, hsettled]
    rfl
  · intro hnot p hp s hs
    have hhandler : handlerFor? n.form = some (p.handler context) := by
      rw [← Option.mem_toList, ← hprocessors]
      exact List.mem_map_of_mem hp
    rw [← Script.events_settled _ _ hs]
    rcases isSound_of_handlerFor? hwell hlinked hkinds hmem hhandler with
      hdone | ⟨code, arguments, hflags, -⟩
    · rw [hdone]
      rfl
    · exact absurd hflags (hnot code arguments)

end Uses

/-! ### A cascade -/

/-- The call `ScriptElement()`. -/
def scriptCreation : Node :=
  .mk 1 ⟨0, 15⟩ (.ofClass 15) (.instanceCreationExpression none none none none none)

/-- The name `src`. -/
def scriptProperty : Node := .mk 4 ⟨17, 20⟩ .unresolved (.simpleIdentifier "src" none)

/-- The property `..src`. -/
def scriptAccess : Node :=
  .mk 3 ⟨15, 20⟩ .unresolved (.propertyAccess none (some scriptProperty) true)

/-- The section `..src = x`. -/
def scriptAssignment : Node :=
  .mk 2 ⟨15, 24⟩ .unresolved (.assignmentExpression (some scriptAccess) "=" none none)

/-- The cascade `ScriptElement()..src = x`. -/
def scriptCascade : Node :=
  .mk 0 ⟨0, 24⟩ .unresolved (.cascadeExpression (some scriptCreation) [scriptAssignment])

/-- The links of this cascade. -/
def scriptLinks : Links :=
  (((((∅ : Links).insert 1 scriptCascade).insert 2 scriptCascade).insert 3 scriptAssignment).insert
    4 scriptAccess)

lemma children_scriptCascade :
    scriptCascade.children = [scriptCreation, scriptAssignment] ∧ scriptCreation.children = [] ∧
      scriptAssignment.children = [scriptAccess] ∧ scriptAccess.children = [scriptProperty] ∧
      scriptProperty.children = [] :=
  ⟨rfl, rfl, rfl, rfl, rfl⟩

lemma addTree_scriptCascade : (∅ : Links).addTree scriptCascade = .ok scriptLinks := by
  have hids : scriptCascade.id = 0 ∧ scriptCreation.id = 1 ∧ scriptAssignment.id = 2 ∧
      scriptAccess.id = 3 ∧ scriptProperty.id = 4 := ⟨rfl, rfl, rfl, rfl, rfl⟩
  simp [Links.addTree, Links.addBelow, Links.addChildren, children_scriptCascade, hids,
    scriptLinks]

lemma isLinked_scriptCascade : scriptLinks.IsLinked scriptCascade :=
  Links.isLinked_of_addTree Std.HashMap.getElem?_empty addTree_scriptCascade

lemma preorder_scriptCascade : scriptCascade.preorder =
    [scriptCascade, scriptCreation, scriptAssignment, scriptAccess, scriptProperty] := by
  simp [Node.preorder_eq, children_scriptCascade]

lemma scriptAssignment_mem_preorder : scriptAssignment ∈ scriptCascade.preorder := by
  rw [preorder_scriptCascade]
  simp

lemma isWellKinded_scriptCascade : scriptCascade.IsWellKinded := by
  rw [Node.IsWellKinded, preorder_scriptCascade]
  simp only [List.forall_mem_cons]
  refine ⟨⟨?_, ?_⟩, ⟨nofun, nofun, nofun⟩, ⟨?_, nofun⟩, ⟨nofun, ?_⟩, trivial,
    fun n hn => (nomatch hn)⟩
  · rintro n ⟨⟩
    rfl
  · intro n hn
    rw [List.mem_singleton.1 hn]
    rfl
  · rintro n ⟨⟩
    rfl
  · rintro n ⟨⟩
    rfl

lemma isWellFormed_standard (c : ClassId) (decl : ClassDecl)
    (hget : Hierarchy.standard.get? c = some decl) : decl.IsWellFormed := by
  have hall : ∀ decl ∈ Hierarchy.standard.classes.toList,
      decl.mixins.isSome = true ∧ decl.interfaces.isSome = true := by decide
  exact hall decl (Array.mem_toList_iff.2 (Array.mem_of_getElem? hget))

/-- The receiver of the property is the target of the cascade. -/
lemma flags_scriptAssignment :
    Flags Hierarchy.standard scriptCascade scriptAssignment attributeKind ["src"] := by
  have hassignment : scriptCascade.IsPath scriptAssignment [scriptCascade] :=
    .child .root (by rw [children_scriptCascade.1]; simp)
  have haccess : scriptCascade.IsPath scriptAccess ([scriptAssignment] ++ [scriptCascade]) :=
    hassignment.child (by rw [children_scriptCascade.2.2.1]; simp)
  have hbelow : ∀ m ∈ [scriptAssignment], m.kind ≠ .cascadeExpression := by
    rw [List.forall_mem_singleton]
    nofun
  have hreceiver : Node.IsReceiver scriptCascade scriptAccess none true (some scriptCreation) :=
    .cascade haccess hbelow rfl
  have htype : scriptCreation.HasStaticType (.ofClass 15) := .known nofun nofun
  refine .propertyAttribute rfl (.refl _) rfl rfl .src hreceiver htype ?_
  refine .inr (.inr ⟨15, [], rfl, "ScriptElement", by simp, 15, .refl, ?_⟩)
  exact ⟨_, rfl, rfl, rfl⟩

/-- A file with this cascade. -/
def scriptFile : Tree where
  root := scriptCascade
  path := "cascade.dart"
  text := none
  lineStarts := #[0]

/-- The context of this file, without settings. -/
def scriptContext : Context := ⟨scriptFile, []⟩

/-- A strict reporter of this file. -/
def scriptReporter : Reporter where
  tree := scriptFile
  strict := true
  severities := []
  limit := none

attribute [local instance] Machine.small

theorem handlers_report_flagged_cascade :
    (∀ c decl, Hierarchy.standard.get? c = some decl → decl.IsWellFormed) ∧
    scriptLinks.IsLinked scriptCascade ∧ scriptCascade.IsWellKinded ∧
    scriptAssignment ∈ scriptCascade.preorder ∧
    ∃ p, (RuleSet.registryAlone rule scriptContext scriptLinks scriptReporter
        ⟨Hierarchy.standard, []⟩).processorsFor scriptAssignment.kind = [p] ∧
      ∀ s : Session, s.supertypes.Remembers Hierarchy.standard →
        (p.handler scriptContext (scriptLinks.site scriptAssignment)).events p.owner scriptLinks s =
          (Script.reportOnce ⟨name, ⟨15, 24⟩, attributeKind, [.string "src"]⟩).events p.owner
            scriptLinks s := by
  have hlinked := isLinked_scriptCascade
  have hkinds := isWellKinded_scriptCascade
  have hmem := scriptAssignment_mem_preorder
  obtain ⟨-, hall⟩ := handlers_report_flagged Hierarchy.standard scriptLinks scriptCascade
    isWellFormed_standard hlinked hkinds scriptContext scriptReporter ⟨Hierarchy.standard, []⟩
  obtain ⟨hreports, -⟩ := hall scriptAssignment hmem
  exact ⟨isWellFormed_standard, hlinked, hkinds, hmem, hreports _ _ flags_scriptAssignment⟩

end UnsafeHtml

end TreeLint
