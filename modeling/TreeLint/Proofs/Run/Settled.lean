/-
Scripts whose questions are answered beforehand.

A session that remembers nothing wrong about the classes answers every question as a
fresh search does, and where a node stands depends on the links alone.  So all
questions of a script can be answered before it runs: `Script.settled`.  What is left
reports, tries to add handlers and fails exactly as the script does
(`Script.events_settled`), and for the rules of this library it is a single report or
nothing, which can be computed.
-/
import TreeLint.Proofs.Run.Files
namespace TreeLint

/-- Whether a type extends one of several classes of a library, as far as the type is known and as a
search through the hierarchy finds it. -/
def Hierarchy.classify (h : Hierarchy) (type : Ty) (names : List String) (library : String) :
    Answer :=
  if type.isVague then .unknown else .ofBool (names.any (h.extends type · library))

namespace Script

/-- What is left of a script when its questions are answered. -/
def settled (h : Hierarchy) (links : Links) : Script → Script
  | .done => .done
  | .fail f => .fail f
  | .report r next => .report r fun answer => (next answer).settled h links
  | .register kind rule callable handler next =>
    .register kind rule callable handler fun answer => (next answer).settled h links
  | .extendsClass type name library next =>
    (next (h.extends type name library)).settled h links
  | .locate node next => (next (links.site node)).settled h links

variable {h : Hierarchy} {links : Links}

@[simp] lemma settled_done : done.settled h links = done := rfl

@[simp] lemma settled_fail (f : Fault) : (fail f).settled h links = fail f := rfl

@[simp] lemma settled_reportOnce (r : Report) :
    (reportOnce r).settled h links = reportOnce r := by
  have hnext : (fun answer : Except Fault (Option Finding) =>
      (orFail done answer).settled h links) = orFail done := by
    funext answer
    cases answer <;> rfl
  rw [reportOnce, settled, hnext]

@[simp] lemma settled_extendsClass (type : Ty) (name library : String) (next : Bool → Script) :
    (extendsClass type name library next).settled h links =
      (next (h.extends type name library)).settled h links := rfl

@[simp] lemma settled_locate (node : Node) (next : Site → Script) :
    (locate node next).settled h links = (next (links.site node)).settled h links := rfl

lemma settled_extendsAny (type : Ty) (library : String) (next : Bool → Script)
    (names : List String) :
    (extendsAny type library next names).settled h links =
      (next (names.any (h.extends type · library))).settled h links := by
  induction names with
  | nil => rfl
  | cons name rest ih =>
    rw [extendsAny, settled_extendsClass, List.any_cons]
    cases h.extends type name library with
    | true => rfl
    | false => exact ih

@[simp] lemma settled_classify (type : Ty) (names : List String) (library : String)
    (next : Answer → Script) :
    (classify type names library next).settled h links =
      (next (h.classify type names library)).settled h links := by
  unfold classify Hierarchy.classify
  cases type.isVague with
  | true => rfl
  | false => exact settled_extendsAny _ _ _ _

/-- **Answering beforehand.**  In a session that remembers nothing wrong a script takes the steps
that are left of it when its questions are answered. -/
theorem events_settled [Machine] (owner : String) (script : Script) {s : Session}
    (hs : s.supertypes.Remembers h) :
    (script.settled h links).events owner links s = script.events owner links s := by
  -- a question changes what is remembered, so the sessions differ in that from then on
  suffices hgen : ∀ s₁ s₂ : Session, s₁.reporter = s₂.reporter → s₁.registry = s₂.registry →
      s₂.supertypes.Remembers h →
      (script.settled h links).events owner links s₁ = script.events owner links s₂ from
    hgen s s rfl rfl hs
  clear hs
  intro s₁ s₂ hreporter hregistry hs
  induction script generalizing s₁ s₂ with
  | done => rfl
  | fail f => rfl
  | report r next ih =>
    simp only [settled, events, hreporter]
    rw [ih _ (s₁.afterReport r) (s₂.afterReport r) (by simp only [Session.afterReport, hreporter])
      hregistry hs]
  | register kind rule callable handler next _ ih =>
    simp only [settled, events, hregistry]
    rcases s₂.registry.add owner ⟨kind, rule, if callable then some handler else none⟩
      with f | registry
    · simp only [ih _ s₁ s₂ hreporter hregistry hs]
    · simp only
      rw [ih _ { s₁ with registry := registry } { s₂ with registry := registry } hreporter rfl hs]
  | extendsClass type name library next ih =>
    rw [settled, events, hs.answer_eq]
    exact ih _ s₁ _ hreporter hregistry (hs.extendsClass type name library)
  | locate node next ih => exact ih _ s₁ s₂ hreporter hregistry hs

end Script

end TreeLint
