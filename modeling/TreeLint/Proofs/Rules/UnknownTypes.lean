/-
What the rules report when less is known about types.

The rules treat a type that is not known in opposite ways.  The rule against unsafe
HTML counts a receiver of such a type as unsafe, so that it reports no fewer writes and
calls if types are blurred; the rule that prefers double literals reports only where a
double is known to be expected, so that it reports no more literals.

Both are told of two trees that are the same but for types that become dynamic, node by
node: `reports_of_blursTo`.  On twins the questions of the rules have answers that
correspond, and the script that is left of a handler when its questions are answered is
covered by the script left of the other one (`Script.CoveredBy`).
-/
import TreeLint.Proofs.Rules.Expectation
import TreeLint.Proofs.Rules.UnsafeUse
import TreeLint.Proofs.Syntax.Blurring
namespace TreeLint

/-! ### Scripts that report at least as much -/

namespace Script

/-- Whether a script of a rule makes a report. -/
def Reports [Machine] (owner : String) (links : Links) (s : Session) (r : Report)
    (script : Script) : Prop :=
  ∃ answer, Event.reported r answer ∈ script.events owner links s

/-- One script does nothing that another one does not do as well: it returns, or both fail with the
same fault, or both make the same report. -/
inductive CoveredBy : Script → Script → Prop
  /-- A script that does nothing is covered by every script. -/
  | done (other : Script) : CoveredBy .done other
  /-- Both fail. -/
  | fail (f : Fault) : CoveredBy (.fail f) (.fail f)
  /-- Both report. -/
  | report (r : Report) : CoveredBy (.reportOnce r) (.reportOnce r)

variable {h : Hierarchy} {links links' : Links} {s s' : Session} {a b : Script}
  {owner owner' : String}

lemma reports_reportOnce_iff [Machine] {r₀ r : Report} :
    (reportOnce r₀).Reports owner links s r ↔ r = r₀ := by
  constructor
  · rintro ⟨answer, hmem⟩
    rw [reportOnce, events, List.mem_cons] at hmem
    rcases hmem with heq | hmem
    · cases heq
      rfl
    · cases hanswer : (s.reporter.report r₀).1 <;> simp [hanswer, orFail, events] at hmem
  · rintro rfl
    exact ⟨_, List.mem_cons_self⟩

/-- What a script reports is reported by one that covers it, once the questions are answered. -/
lemma CoveredBy.reports [Machine] (hab : (a.settled h links).CoveredBy (b.settled h links'))
    (hs : s.supertypes.Remembers h) (hs' : s'.supertypes.Remembers h) {r : Report}
    (ha : a.Reports owner links s r) : b.Reports owner' links' s' r := by
  rw [Reports, ← events_settled owner a hs] at ha
  rw [Reports, ← events_settled owner' b hs']
  generalize a.settled h links = left, b.settled h links' = right at hab ha
  cases hab with
  | done other =>
    obtain ⟨answer, hmem⟩ := ha
    cases hmem
  | fail f =>
    obtain ⟨answer, hmem⟩ := ha
    simp [events] at hmem
  | report r₀ =>
    obtain rfl := reports_reportOnce_iff.1 ha
    exact reports_reportOnce_iff.2 rfl

lemma CoveredBy.attempt {α β : Type} {R : α → β → Prop} {x : Except Fault α} {y : Except Fault β}
    {f : α → Script} {g : β → Script} (hxy : Agree R x y)
    (hfg : ∀ u v, R u v → ((f u).settled h links).CoveredBy ((g v).settled h links')) :
    ((attempt x f).settled h links).CoveredBy ((attempt y g).settled h links') := by
  cases hxy with
  | ok huv => exact hfg _ _ huv
  | error fault => exact .fail fault

end Script

/-! ### Unsafe uses -/

namespace UnsafeHtml

variable {h : Hierarchy} {links links' : Links} {root root' n n' : Node} {above above' : List Node}
  {t t' : Ty} {names : List String}

/-- A type of which less is known stays an unsafe one. -/
lemma isUnsafe_of_blursTo (ht : t.BlursTo t') (hrisk : isUnsafe h names t = true) :
    isUnsafe h names t' = true := by
  cases ht with
  | refl => exact hrisk
  | dynamic => rfl
  | interface cls harguments => exact hrisk

lemma coveredBy_reportAt (hn : n.BlursTo n') (code : DiagnosticKind) (arguments : List String) :
    ((reportAt n code arguments).settled h links).CoveredBy
      ((reportAt n' code arguments).settled h links') := by
  rw [settled_reportAt, settled_reportAt, reportAt, reportAt, hn.span_eq]
  exact .report _

lemma coveredBy_whenUnsafe (ht : t.BlursTo t') {action action' : Script}
    (haction : (action.settled h links).CoveredBy (action'.settled h links')) :
    ((whenUnsafe t names action).settled h links).CoveredBy
      ((whenUnsafe t' names action').settled h links') := by
  rw [settled_whenUnsafe, settled_whenUnsafe]
  by_cases hrisk : isUnsafe h names t = true
  · rwa [if_pos hrisk, if_pos (isUnsafe_of_blursTo ht hrisk)]
  · rw [if_neg hrisk]
    exact .done _

lemma coveredBy_checkProperty (hn : n.BlursTo n') (ht : t.BlursTo t') (property : String) :
    ((checkProperty n t property).settled h links).CoveredBy
      ((checkProperty n' t' property).settled h links') := by
  rw [checkProperty, checkProperty]
  cases attributeClasses property with
  | nil => exact .done _
  | cons cls classes => exact coveredBy_whenUnsafe ht (coveredBy_reportAt hn _ _)

lemma coveredBy_checkPart (hn : n.BlursTo n') {r r' : Option Node}
    (hr : Option.Rel Node.BlursTo r r') {part part' : Node} (hpart : part.BlursTo part') :
    ((checkPart n r part).settled h links).CoveredBy
      ((checkPart n' r' part').settled h links') := by
  refine .attempt (rel_resolvedTypeOf hr) fun t t' ht => .attempt hpart.name ?_
  rintro property _ rfl
  exact coveredBy_checkProperty hn ht property

/-- The receiver of an attribute is blurred, be it a class around, a target or that of a cascade. -/
lemma coveredBy_checkTarget (hn : n.BlursTo n') {left left' : Node}
    (hleft : Node.Twins root root' left above left' above') (hroot : root.BlursTo root')
    (hlinked : links.IsLinked root) (hlinked' : links'.IsLinked root')
    {written written' : Option Element} (hwritten : Option.Rel Element.BlursTo written written') :
    ((checkTarget n written left).settled h links).CoveredBy
      ((checkTarget n' written' left').settled h links') := by
  have hform := (hleft.blursTo hroot).form
  rw [checkTarget, checkTarget]
  generalize left.form = f, left'.form = f' at hform
  cases hform with
  | simpleIdentifier he =>
    cases hwritten with
    | none => exact .done _
    | @some w w' hw =>
      simp only [Option.bind_some, hw.enclosingType_eq]
      cases w.enclosingType with
      | none => exact .done _
      | some t => exact coveredBy_checkProperty hn (.refl t) _
  | @propertyAccess target target' property property' isCascaded htarget hproperty =>
    cases hproperty with
    | none => exact .done _
    | some hproperty =>
      cases isCascaded with
      | true =>
        simp only [if_true, Script.settled_locate, hleft.site_eq hlinked, hleft.site_eq' hlinked']
        exact coveredBy_checkPart hn (Site.rel_cascadeTarget? (hleft.rel_above hroot)) hproperty
      | false => exact coveredBy_checkPart hn htarget hproperty
  | prefixedIdentifier hqualifier hidentifier =>
    cases hidentifier with
    | none => exact .done _
    | some hidentifier => exact coveredBy_checkPart hn hqualifier hidentifier
  | _ => exact .done _

/-- An assignment is checked in the same way, up to the types. -/
lemma coveredBy_checkAssignment (hn : Node.Twins root root' n above n' above')
    (hroot : root.BlursTo root') (hlinked : links.IsLinked root)
    (hlinked' : links'.IsLinked root') :
    ((checkAssignment ⟨n, above⟩).settled h links).CoveredBy
      ((checkAssignment ⟨n', above'⟩).settled h links') := by
  have hblurs := hn.blursTo hroot
  have hform := hblurs.form
  simp only [checkAssignment]
  generalize hf : n.form = f, hf' : n'.form = f' at hform
  cases hform with
  | @assignmentExpression left left' _ _ operator _ _ hleft hright hwritten =>
    cases hleft with
    | none => exact .done _
    | @some left left' hleft =>
      have hzip : (left, left') ∈ n.children.zip n'.children := by
        rw [Node.children, Node.children, hf, hf']
        exact List.mem_cons_self
      obtain ⟨below, below', hinner⟩ := (hn.child hzip).unparenthesized hroot
      simp only [hleft.isExpression_eq, hleft.kind_eq]
      cases left.isExpression with
      | false => exact .fail _
      | true => exact coveredBy_checkTarget hblurs hinner hroot hlinked hlinked' hwritten
  | _ => exact .done _

lemma coveredBy_checkReceiver {r r' : Option Node} (hr : Option.Rel Node.BlursTo r r')
    {method method' : Node} (hmethod : method.BlursTo method') (cls : String)
    {action action' : Script}
    (haction : (action.settled h links).CoveredBy (action'.settled h links')) :
    ((checkReceiver r method cls action).settled h links).CoveredBy
      ((checkReceiver r' method' cls action').settled h links') := by
  cases hr with
  | some hr => exact .attempt hr.resolvedType fun t t' ht => coveredBy_whenUnsafe ht haction
  | none =>
    refine .attempt hmethod.referent fun e e' he => ?_
    cases he with
    | none => exact .done _
    | @some e e' he =>
      simp only [Option.bind_some, he.enclosingType_eq]
      cases e.enclosingType with
      | none => exact .done _
      | some t => exact coveredBy_whenUnsafe (.refl t) haction

/-- A call is checked in the same way, up to the types. -/
lemma coveredBy_checkInvocation (hn : n.BlursTo n')
    (habove : List.Forall₂ Node.BlursTo above above') :
    ((checkInvocation ⟨n, above⟩).settled h links).CoveredBy
      ((checkInvocation ⟨n', above'⟩).settled h links') := by
  have hform := hn.form
  simp only [checkInvocation]
  generalize n.form = f, n'.form = f' at hform
  cases hform with
  | @methodInvocation target target' method method' _ _ isCascaded htarget hmethod =>
    cases hmethod with
    | none => exact .done _
    | some hmethod =>
      refine .attempt hmethod.name ?_
      rintro called _ rfl
      have hreceiver : Option.Rel Node.BlursTo
          (if isCascaded then Site.cascadeTarget? above else target)
          (if isCascaded then Site.cascadeTarget? above' else target') := by
        cases isCascaded with
        | true => exact Site.rel_cascadeTarget? habove
        | false => exact htarget
      cases methodClass? called with
      | none => exact .done _
      | some cls =>
        exact coveredBy_checkReceiver hreceiver hmethod cls (coveredBy_reportAt hn _ _)
  | _ => exact .done _

end UnsafeHtml

/-! ### Expected types -/

namespace DoubleLiteral

variable {h : Hierarchy} {links links' : Links} {root root' n n' : Node} {above above' : List Node}

/-- What is known to be expected was known to be expected before the types were blurred. -/
lemma isExactly_of_blursTo {expected expected' : Annotation} (he : expected.BlursTo expected')
    {cls : String} (hexactly : isExactly h expected' cls = true) :
    isExactly h expected cls = true := by
  cases he with
  | vague ht => simp [isExactly, Hierarchy.classifyCoreClass, ht] at hexactly
  | type ht =>
    rw [isExactly, beq_iff_eq] at hexactly ⊢
    exact ht.of_classifyCoreClass hexactly
  | node hn => cases hexactly

lemma rel_declaredReturn (h : List.Forall₂ Node.BlursTo above above') :
    Agree Annotation.BlursTo (declaredReturn above) (declaredReturn above') := by
  cases h with
  | nil => exact .ok .unresolved
  | @cons owner owner' _ _ howner hrest =>
    have hform := howner.form
    unfold declaredReturn
    simp only
    generalize owner.form = f, owner'.form = f' at hform
    cases hform with
    | methodDeclaration hreturn => exact Annotation.rel_ofNode? hreturn
    | functionExpression =>
      cases hrest with
      | nil => exact .ok .unresolved
      | @cons declaration declaration' _ _ hdeclaration =>
        have hform := hdeclaration.form
        simp only
        generalize declaration.form = f, declaration'.form = f' at hform
        cases hform with
        | functionDeclaration hreturn => exact Annotation.rel_ofNode? hreturn
        | _ => exact .ok .unresolved
    | _ => exact .ok .unresolved

lemma rel_aboveBody (h : List.Forall₂ Node.BlursTo above above') :
    Option.Rel (List.Forall₂ Node.BlursTo) (aboveBody above) (aboveBody above') := by
  induction h with
  | nil => exact .none
  | cons hn hrest ih =>
    rw [aboveBody, aboveBody, hn.kind_eq]
    split
    · exact .some hrest
    · exact ih

section Twins

variable (hroot : root.BlursTo root') (hdistinct : (root.preorder.map Node.id).Nodup)
  (hdistinct' : (root'.preorder.map Node.id).Nodup)
include hroot hdistinct hdistinct'

lemma rel_parameterExpectation (hn : Node.Twins root root' n above n' above') :
    Agree Annotation.BlursTo (parameterExpectation ⟨n, above⟩)
      (parameterExpectation ⟨n', above'⟩) :=
  (hn.parameterType hroot hdistinct hdistinct').map fun _ _ ht => .type ht

/-- The code around twins expects them to have the same type, blurred. -/
lemma rel_expectedType (hn : Node.Twins root root' n above n' above') :
    Agree Annotation.BlursTo (expectedType n above) (expectedType n' above') := by
  -- the elements of a list ask what the list is expected to be, hence the induction on the place
  induction hn with
  | root => exact .ok .unresolved
  | @child parent parent' c c' above above' hparent hc ih =>
    have habove := hparent.rel_above hroot
    have hform := (hparent.blursTo hroot).form
    have hargument := rel_parameterExpectation hroot hdistinct hdistinct' (hparent.child hc)
    have hnamed := rel_parameterExpectation hroot hdistinct hdistinct' hparent
    unfold expectedType
    generalize parent.form = f, parent'.form = f' at hform
    cases hform with
    | argumentList => exact hargument
    | listLiteral htypes =>
      cases htypes with
      | none => exact ih.bind fun _ _ => Annotation.rel_soleArgument
      | some harguments =>
        cases harguments with
        | nil => exact .ok .unresolved
        | cons hfirst hrest =>
          cases hrest with
          | nil => exact Annotation.rel_ofNode hfirst
          | cons => exact .ok .unresolved
    | namedExpression =>
      cases habove with
      | nil => exact .ok .unresolved
      | @cons list list' _ _ hlist =>
        have hform := hlist.form
        simp only
        generalize list.form = f, list'.form = f' at hform
        cases hform with
        | argumentList => exact hnamed
        | _ => exact .ok .unresolved
    | expressionFunctionBody => exact rel_declaredReturn habove
    | returnStatement =>
      have hbody := rel_aboveBody habove
      generalize aboveBody above = body, aboveBody above' = body' at hbody
      cases hbody with
      | none => exact .ok .unresolved
      | some hbody => exact rel_declaredReturn hbody
    | variableDeclaration =>
      cases habove with
      | nil => exact .ok .unresolved
      | @cons list list' _ _ hlist =>
        have hform := hlist.form
        simp only
        generalize list.form = f, list'.form = f' at hform
        cases hform with
        | variableDeclarationList htype => exact Annotation.rel_ofNode? htype
        | _ => exact .ok .unresolved
    | _ => exact .ok .unresolved

/-- A literal that stands where a double is expected stood there before the types were blurred. -/
lemma rel_isMisplaced (hn : Node.Twins root root' n above n' above') :
    Agree (fun misplaced misplaced' => misplaced' = true → misplaced = true)
      (isMisplaced h ⟨n, above⟩) (isMisplaced h ⟨n', above'⟩) := by
  have hexpected : ∀ {m m' : Node} {upper upper' : List Node} (cls : String),
      Node.Twins root root' m upper m' upper' →
      Agree (fun misplaced misplaced' => misplaced' = true → misplaced = true)
        ((expectedType m upper).map (isExactly h · cls))
        ((expectedType m' upper').map (isExactly h · cls)) := by
    intro m m' upper upper' cls hm
    exact (rel_expectedType hroot hdistinct hdistinct' hm).map fun _ _ he =>
      isExactly_of_blursTo he
  rw [isMisplaced, isMisplaced, expectation, expectation]
  cases hn with
  | root => exact hexpected "double" .root
  | @child parent parent' _ _ above above' hparent hc =>
    have hform := (hparent.blursTo hroot).form
    simp only
    generalize parent.form = f, parent'.form = f' at hform
    cases hform with
    | @prefixExpression operator =>
      by_cases hminus : operator = "-"
      · simp only [if_pos hminus]
        exact hexpected "int" hparent
      · simp only [if_neg hminus]
        exact .ok fun hfalse => hfalse
    | _ => exact hexpected "double" (hparent.child hc)

/-- A literal is checked in the same way, up to the types. -/
lemma coveredBy_checkLiteral (h : Hierarchy) (links links' : Links)
    (hn : Node.Twins root root' n above n' above') :
    ((checkLiteral h ⟨n', above'⟩).settled h links').CoveredBy
      ((checkLiteral h ⟨n, above⟩).settled h links) := by
  have hblurs := hn.blursTo hroot
  have hform := hblurs.form
  have hmisplaced := (rel_isMisplaced (h := h) hroot hdistinct hdistinct' hn).flip
  rw [checkLiteral, checkLiteral]
  simp only [hblurs.span_eq]
  generalize n.form = f, n'.form = f' at hform
  cases hform with
  | integerLiteral lexeme value =>
    simp only
    split
    · refine .attempt hmisplaced fun misplaced' misplaced himp => ?_
      cases misplaced' with
      | false => exact .done _
      | true =>
        simp only [himp rfl, if_true, Script.settled_reportOnce]
        exact .report _
    · exact .done _
  | _ => exact .done _

end Twins

end DoubleLiteral

/-! ### The two rules -/

/-- Whether a handler of a rule that has registered by itself for a file makes a report on a
node. -/
def Rule.Reports [Machine] (rule : Rule) (context : Context) (links : Links) (reporter : Reporter)
    (m : Supertypes) (s : Session) (n : Node) (r : Report) : Prop :=
  ∃ p ∈ (RuleSet.registryAlone rule context links reporter m).processorsFor n.kind,
    (p.handler context (links.site n)).Reports p.owner links s r

section Rules

variable {h : Hierarchy} {links links' : Links} {root root' n n' : Node} {above above' : List Node}

/-- The handlers for assignments and calls of methods report no less on a node of which less is
known. -/
lemma UnsafeHtml.coveredBy_handlerFor? (hroot : root.BlursTo root') (hlinked : links.IsLinked root)
    (hlinked' : links'.IsLinked root') (hn : Node.Twins root root' n above n' above')
    (hkind : n.kind = .assignmentExpression ∨ n.kind = .methodInvocation)
    {handler : Site → Script}
    (hhandler : handlerFor? n.form = some handler) :
    ((handler (links.site n)).settled h links).CoveredBy
      ((handler (links'.site n')).settled h links') := by
  rw [hn.site_eq hlinked, hn.site_eq' hlinked']
  unfold handlerFor? at hhandler
  split at hhandler
  · cases hhandler
    exact coveredBy_checkAssignment hn hroot hlinked hlinked'
  · next hform =>
    rw [Node.kind, hform] at hkind
    rcases hkind with hkind | hkind <;> cases hkind
  · cases hhandler
    exact coveredBy_checkInvocation (hn.blursTo hroot) (hn.rel_above hroot)
  · cases hhandler

/-- **Knowing less about types.**  Take two linked trees that are the same but for types that become
dynamic in the second one: static types of expressions, types of annotations and elements, or type
arguments in them.  Node by node the trees correspond, and whatever the files, in any sessions that
remember nothing wrong about the classes: what the rule against unsafe HTML reports on an assignment
or on the call of a method of the first tree, it reports on that of the second tree as well; and
what the rule that prefers double literals reports on the second tree, it reports on the first one
as well. -/
theorem reports_of_blursTo [Machine] (h : Hierarchy) (links links' : Links) (root root' : Node)
    (hroot : root.BlursTo root') (hlinked : links.IsLinked root)
    (hlinked' : links'.IsLinked root') (context context' : Context) (reporter reporter' : Reporter)
    (m m' : Supertypes) :
    List.Forall₂ (fun n n' => n.BlursTo n' ∧
      ∀ s s' : Session, s.supertypes.Remembers h → s'.supertypes.Remembers h → ∀ r : Report,
        (n.kind = .assignmentExpression ∨ n.kind = .methodInvocation →
          UnsafeHtml.rule.Reports context links reporter m s n r →
            UnsafeHtml.rule.Reports context' links' reporter' m' s' n' r) ∧
        ((DoubleLiteral.rule h).Reports context' links' reporter' m' s' n' r →
          (DoubleLiteral.rule h).Reports context links reporter m s n r))
      root.preorder root'.preorder := by
  have htwins : Node.Twins root root' root [] root' [] := .root
  refine (htwins.rel_preorder hroot).imp ?_
  rintro n n' ⟨above, above', hn⟩
  have hblurs := hn.blursTo hroot
  refine ⟨hblurs, fun s s' hs hs' r => ⟨?_, ?_⟩⟩
  · rintro hkind ⟨p, hp, hreports⟩
    rw [(UnsafeHtml.processorsFor_registryAlone context links reporter m).2] at hp
    have hhandler : ∀ file : Context, UnsafeHtml.handlerFor? n.form = some (p.handler file) := by
      intro file
      rw [← Option.mem_toList, ← UnsafeHtml.map_handler_registrations file]
      exact List.mem_map_of_mem hp
    have hsame : p.handler context' = p.handler context :=
      Option.some.inj ((hhandler context').symm.trans (hhandler context))
    have hcovered := UnsafeHtml.coveredBy_handlerFor? (h := h) hroot hlinked hlinked' hn hkind
      (hhandler context)
    refine ⟨p, ?_, ?_⟩
    · rwa [(UnsafeHtml.processorsFor_registryAlone context' links' reporter' m').2, hblurs.kind_eq]
    · rw [hsame]
      exact hcovered.reports hs hs' hreports
  · rintro ⟨p, hp, hreports⟩
    rw [(DoubleLiteral.processorsFor_registryAlone h context' links' reporter' m').2,
      hblurs.kind_eq] at hp
    have hcovered := DoubleLiteral.coveredBy_checkLiteral hroot hlinked.distinct hlinked'.distinct h
      links links' hn
    rw [← hn.site_eq hlinked, ← hn.site_eq' hlinked'] at hcovered
    refine ⟨p, ?_, ?_⟩
    · rwa [(DoubleLiteral.processorsFor_registryAlone h context links reporter m).2]
    · split at hp
      · cases List.mem_singleton.1 hp
        exact hcovered.reports hs' hs hreports
      · cases hp

end Rules

/-! ### A cascade on a receiver of unknown type -/

namespace UnsafeHtml

/-- The call `ScriptElement()`, if nothing is known about what it creates. -/
def dynamicCreation : Node :=
  .mk 1 ⟨0, 15⟩ .dynamic (.instanceCreationExpression none none none none none)

/-- The cascade `ScriptElement()..src = x` on this call. -/
def dynamicCascade : Node :=
  .mk 0 ⟨0, 24⟩ .unresolved (.cascadeExpression (some dynamicCreation) [scriptAssignment])

/-- The links of this cascade. -/
def dynamicLinks : Links :=
  ((((∅ : Links).insert 1 dynamicCascade).insert 2 dynamicCascade).insert 3
    scriptAssignment).insert 4 scriptAccess

lemma children_dynamicCascade :
    dynamicCascade.children = [dynamicCreation, scriptAssignment] ∧ dynamicCreation.children = [] :=
  ⟨rfl, rfl⟩

lemma addTree_dynamicCascade : (∅ : Links).addTree dynamicCascade = .ok dynamicLinks := by
  have hids : dynamicCascade.id = 0 ∧ dynamicCreation.id = 1 ∧ scriptAssignment.id = 2 ∧
      scriptAccess.id = 3 ∧ scriptProperty.id = 4 := ⟨rfl, rfl, rfl, rfl, rfl⟩
  simp [Links.addTree, Links.addBelow, Links.addChildren, children_dynamicCascade,
    children_scriptCascade, hids, dynamicLinks]

lemma preorder_dynamicCascade : dynamicCascade.preorder =
    [dynamicCascade, dynamicCreation, scriptAssignment, scriptAccess, scriptProperty] := by
  simp [Node.preorder_eq, children_dynamicCascade, children_scriptCascade]

lemma blursTo_dynamicCascade : scriptCascade.BlursTo dynamicCascade := by
  have hcreation : scriptCreation.BlursTo dynamicCreation :=
    .mk (.dynamic _) (.instanceCreationExpression .none .none .none .none)
  have hproperty : scriptProperty.BlursTo scriptProperty := .mk (.refl _) (.simpleIdentifier .none)
  have haccess : scriptAccess.BlursTo scriptAccess :=
    .mk (.refl _) (.propertyAccess .none (.some hproperty))
  have hassignment : scriptAssignment.BlursTo scriptAssignment :=
    .mk (.refl _) (.assignmentExpression (.some haccess) .none .none)
  exact .mk (.refl _) (.cascadeExpression (.some hcreation) (.cons hassignment .nil))

/-- The report of the assignment in the cascade. -/
def scriptReport : Report := ⟨name, ⟨15, 24⟩, attributeKind, [.string "src"]⟩

attribute [local instance] Machine.small

lemma reports_scriptAssignment {s : Session} (hs : s.supertypes.Remembers Hierarchy.standard) :
    rule.Reports scriptContext scriptLinks scriptReporter ⟨Hierarchy.standard, []⟩ s
      scriptAssignment scriptReport := by
  obtain ⟨handler, hhandler, hsettled⟩ := settled_of_flags isWellFormed_standard
    isLinked_scriptCascade isWellKinded_scriptCascade scriptAssignment_mem_preorder
    flags_scriptAssignment
  have hprocessors := map_handler_registrations scriptContext scriptAssignment
  rw [hhandler, Option.toList_some, List.map_eq_singleton_iff] at hprocessors
  obtain ⟨p, hp, rfl⟩ := hprocessors
  refine ⟨p, ?_, ?_⟩
  · rw [(processorsFor_registryAlone _ _ _ _).2, hp]
    exact List.mem_singleton_self p
  · rw [Script.Reports, ← Script.events_settled _ _ hs, hsettled]
    exact Script.reports_reportOnce_iff.2 rfl

/-- A file with the cascade of which less is known. -/
def dynamicFile : Tree := { scriptFile with root := dynamicCascade }

/-- The context of this file, without settings. -/
def dynamicContext : Context := ⟨dynamicFile, []⟩

/-- A strict reporter of this file. -/
def dynamicReporter : Reporter := { scriptReporter with tree := dynamicFile }

theorem reports_of_blursTo_cascade :
    scriptCascade.BlursTo dynamicCascade ∧ scriptLinks.IsLinked scriptCascade ∧
      dynamicLinks.IsLinked dynamicCascade ∧
      ∀ s : Session, s.supertypes.Remembers Hierarchy.standard →
        rule.Reports scriptContext scriptLinks scriptReporter ⟨Hierarchy.standard, []⟩ s
            scriptAssignment scriptReport ∧
          rule.Reports dynamicContext dynamicLinks dynamicReporter ⟨Hierarchy.standard, []⟩ s
            scriptAssignment scriptReport := by
  have hlinked := isLinked_scriptCascade
  have hlinked' : dynamicLinks.IsLinked dynamicCascade :=
    Links.isLinked_of_addTree Std.HashMap.getElem?_empty addTree_dynamicCascade
  have hall := reports_of_blursTo Hierarchy.standard scriptLinks dynamicLinks scriptCascade
    dynamicCascade blursTo_dynamicCascade hlinked hlinked' scriptContext dynamicContext
    scriptReporter dynamicReporter ⟨Hierarchy.standard, []⟩ ⟨Hierarchy.standard, []⟩
  rw [preorder_scriptCascade, preorder_dynamicCascade] at hall
  simp only [List.forall₂_cons] at hall
  obtain ⟨-, -, ⟨-, hassignment⟩, -⟩ := hall
  refine ⟨blursTo_dynamicCascade, hlinked, hlinked', fun s hs => ?_⟩
  have hreports := reports_scriptAssignment hs
  exact ⟨hreports, (hassignment s s hs hs scriptReport).1 (.inl rfl) hreports⟩

end UnsafeHtml

end TreeLint
