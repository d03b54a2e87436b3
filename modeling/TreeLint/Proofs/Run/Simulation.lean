/-
Sessions in which a script does the same.

A script learns of its session only by the answers to its reports, to its questions
about supertypes and to its attempts to add handlers.  A relation between sessions
under which all three are answered alike, and which these steps keep, is a
`Session.Simulation`: related sessions make a script take the same steps to the same
end, and are related again after it.

A property of sessions that the steps keep is a `Session.Invariant`.

Relations and properties may take account of only some of the reports and handlers;
`Script.ReportsOnly` and `Script.AddsOnly` say that a script makes no other reports
and tries to add no other handlers.
-/
import Mathlib.Tactic.Common
import TreeLint.Proofs.Run.Event
namespace TreeLint

namespace Script

/-- Whatever a script is answered, it makes only reports of one sort. -/
def ReportsOnly (reports : Report → Prop) : Script → Prop
  | .done => True
  | .fail _ => True
  | .report r next => reports r ∧ ∀ answer, (next answer).ReportsOnly reports
  | .register _ _ _ _ next => ∀ answer, (next answer).ReportsOnly reports
  | .extendsClass _ _ _ next => ∀ answer, (next answer).ReportsOnly reports
  | .locate _ next => ∀ place, (next place).ReportsOnly reports

/-- Whatever a script is answered, it tries to add only handlers of one sort. -/
def AddsOnly (adds : Registration → Prop) : Script → Prop
  | .done => True
  | .fail _ => True
  | .report _ next => ∀ answer, (next answer).AddsOnly adds
  | .register kind rule callable handler next =>
    adds ⟨kind, rule, if callable then some handler else none⟩ ∧
      ∀ answer, (next answer).AddsOnly adds
  | .extendsClass _ _ _ next => ∀ answer, (next answer).AddsOnly adds
  | .locate _ next => ∀ place, (next place).AddsOnly adds

variable {reports reports' : Report → Prop} {adds adds' : Registration → Prop} {script : Script}

lemma reportsOnly_of_forall (h : ∀ r, reports r) (script : Script) :
    script.ReportsOnly reports := by
  induction script with
  | done => trivial
  | fail f => trivial
  | report r next ih => exact ⟨h r, ih⟩
  | register kind rule callable handler next _ ih => exact ih
  | extendsClass type name library next ih => exact ih
  | locate node next ih => exact ih

lemma ReportsOnly.mono (h : ∀ r, reports r → reports' r) (hs : script.ReportsOnly reports) :
    script.ReportsOnly reports' := by
  induction script with
  | done => trivial
  | fail f => trivial
  | report r next ih => exact ⟨h r hs.1, fun answer => ih answer (hs.2 answer)⟩
  | register kind rule callable handler next _ ih => exact fun answer => ih answer (hs answer)
  | extendsClass type name library next ih => exact fun answer => ih answer (hs answer)
  | locate node next ih => exact fun place => ih place (hs place)

lemma addsOnly_of_forall (h : ∀ reg, adds reg) (script : Script) : script.AddsOnly adds := by
  induction script with
  | done => trivial
  | fail f => trivial
  | report r next ih => exact ih
  | register kind rule callable handler next _ ih => exact ⟨h _, ih⟩
  | extendsClass type name library next ih => exact ih
  | locate node next ih => exact ih

lemma AddsOnly.mono (h : ∀ reg, adds reg → adds' reg) (hs : script.AddsOnly adds) :
    script.AddsOnly adds' := by
  induction script with
  | done => trivial
  | fail f => trivial
  | report r next ih => exact fun answer => ih answer (hs answer)
  | register kind rule callable handler next _ ih =>
    exact ⟨h _ hs.1, fun answer => ih answer (hs.2 answer)⟩
  | extendsClass type name library next ih => exact fun answer => ih answer (hs answer)
  | locate node next ih => exact fun place => ih place (hs place)

/-- Handlers that are added from a list make no reports while they are added. -/
lemma reportsOnly_addAll (reports : Report → Prop) (regs : List Registration) :
    (addAll regs).ReportsOnly reports := by
  induction regs with
  | nil => trivial
  | cons reg rest ih =>
    intro answer
    cases answer with
    | error f => trivial
    | ok _ => exact ih

lemma addsOnly_addAll {regs : List Registration} (h : ∀ reg ∈ regs, adds reg) :
    (addAll regs).AddsOnly adds := by
  induction regs with
  | nil => trivial
  | cons reg rest ih =>
    obtain ⟨hfirst, hrest⟩ := List.forall_mem_cons.1 h
    obtain ⟨kind, rule, handler⟩ := reg
    refine ⟨?_, fun answer => ?_⟩
    · cases handler <;> exact hfirst
    · cases answer with
      | error f => trivial
      | ok _ => exact ih hrest

end Script

/-- The session with another registry. -/
def Session.withRegistry (s : Session) (registry : Registry) : Session :=
  { s with registry := registry }

section

variable [Machine]

/-- A relation between sessions that the steps of a script keep, and under which they are answered
alike, as far as the reports and the handlers are of the sorts meant. -/
structure Session.Simulation (reports : Report → Prop) (adds : Registration → Prop)
    (R : Session → Session → Prop) : Prop where
  /-- A report is answered alike. -/
  report_answer : ∀ {s₁ s₂ r}, R s₁ s₂ → reports r →
    (s₁.reporter.report r).1 = (s₂.reporter.report r).1
  /-- A report keeps the relation. -/
  report_step : ∀ {s₁ s₂ r}, R s₁ s₂ → reports r → R (s₁.afterReport r) (s₂.afterReport r)
  /-- A handler is refused on both sides, with the same fault, or added on both. -/
  add : ∀ {s₁ s₂ reg} (owner : String), R s₁ s₂ → adds reg →
    (∃ f, s₁.registry.add owner reg = .error f ∧ s₂.registry.add owner reg = .error f) ∨
    ∃ r₁ r₂, s₁.registry.add owner reg = .ok r₁ ∧ s₂.registry.add owner reg = .ok r₂ ∧
      R (s₁.withRegistry r₁) (s₂.withRegistry r₂)
  /-- A question is answered alike. -/
  question_answer : ∀ {s₁ s₂ type name library}, R s₁ s₂ →
    (s₁.supertypes.extendsClass type name library).1 =
      (s₂.supertypes.extendsClass type name library).1
  /-- A question keeps the relation. -/
  question_step : ∀ {s₁ s₂ type name library}, R s₁ s₂ →
    R (s₁.afterQuestion type name library) (s₂.afterQuestion type name library)

/-- A property of sessions that the steps of a script keep, as far as the reports and the handlers
are of the sorts meant. -/
structure Session.Invariant (reports : Report → Prop) (adds : Registration → Prop)
    (P : Session → Prop) : Prop where
  /-- A report keeps the property. -/
  report : ∀ {s r}, P s → reports r → P (s.afterReport r)
  /-- A handler that is added keeps the property. -/
  add : ∀ {s owner reg r}, P s → adds reg → s.registry.add owner reg = .ok r →
    P (s.withRegistry r)
  /-- A question keeps the property. -/
  question : ∀ {s type name library}, P s → P (s.afterQuestion type name library)

/-- Of two sessions a script comes to the same end in both, and leaves related ones if they are
related. -/
def Script.RunsAlike (R : Session → Session → Prop) (owner : String) (links : Links)
    (script : Script) : Prop :=
  ∀ s₁ s₂, R s₁ s₂ → (script.run owner links s₁).1 = (script.run owner links s₂).1 ∧
    R (script.run owner links s₁).2 (script.run owner links s₂).2

variable {reports : Report → Prop} {adds : Registration → Prop} {R : Session → Session → Prop}
  {P : Session → Prop} {s₁ s₂ : Session}

/-- Frozen registries refuse every handler alike. -/
lemma Registry.exists_add_of_frozen {r₁ r₂ : Registry} (h₁ : r₁.frozen = true)
    (h₂ : r₂.frozen = true) (owner : String) (reg : Registration) :
    ∃ f, r₁.add owner reg = .error f ∧ r₂.add owner reg = .error f :=
  ⟨_, Registry.add_of_frozen h₁ owner reg, Registry.add_of_frozen h₂ owner reg⟩

/-- With the same handlers on both sides, one more is treated alike. -/
lemma Session.add_of_registry_eq (h : s₁.registry = s₂.registry)
    (hR : ∀ r, R (s₁.withRegistry r) (s₂.withRegistry r)) (owner : String) (reg : Registration) :
    (∃ f, s₁.registry.add owner reg = .error f ∧ s₂.registry.add owner reg = .error f) ∨
    ∃ r₁ r₂, s₁.registry.add owner reg = .ok r₁ ∧ s₂.registry.add owner reg = .ok r₂ ∧
      R (s₁.withRegistry r₁) (s₂.withRegistry r₂) := by
  rw [h]
  rcases hadd : s₂.registry.add owner reg with f | r
  · exact .inl ⟨f, rfl, rfl⟩
  · exact .inr ⟨r, r, rfl, rfl, hR r⟩

/-- Once the registries are frozen, handlers of all sorts are treated alike. -/
lemma Session.Simulation.frozen (sim : Session.Simulation reports adds R) :
    Session.Simulation reports (fun _ => True) (fun s₁ s₂ =>
      R s₁ s₂ ∧ s₁.registry.frozen = true ∧ s₂.registry.frozen = true) where
  report_answer hs hr := sim.report_answer hs.1 hr
  report_step hs hr := ⟨sim.report_step hs.1 hr, hs.2⟩
  add _ hs _ := .inl (Registry.exists_add_of_frozen hs.2.1 hs.2.2 _ _)
  question_answer hs := sim.question_answer hs.1
  question_step hs := ⟨sim.question_step hs.1, hs.2⟩

/-- An invariant is a simulation of each session by itself. -/
lemma Session.Invariant.simulation (inv : Session.Invariant reports adds P) :
    Session.Simulation reports adds (fun s₁ s₂ => s₁ = s₂ ∧ P s₁) where
  report_answer := by
    rintro s₁ s₂ r ⟨rfl, -⟩ -
    rfl
  report_step := by
    rintro s₁ s₂ r ⟨rfl, hs⟩ hr
    exact ⟨rfl, inv.report hs hr⟩
  add := by
    rintro s₁ s₂ reg owner ⟨rfl, hs⟩ hadds
    rcases hadd : s₁.registry.add owner reg with f | r
    · exact .inl ⟨f, rfl, rfl⟩
    · exact .inr ⟨r, r, rfl, rfl, rfl, inv.add hs hadds hadd⟩
  question_answer := by
    rintro s₁ s₂ type name library ⟨rfl, -⟩
    rfl
  question_step := by
    rintro s₁ s₂ type name library ⟨rfl, hs⟩
    exact ⟨rfl, inv.question hs⟩

/-- Once the registry is frozen, it stays so. -/
lemma Session.Invariant.frozen (inv : Session.Invariant reports adds P) :
    Session.Invariant reports (fun _ => True) (fun s => P s ∧ s.registry.frozen = true) where
  report hs hr := ⟨inv.report hs.1 hr, hs.2⟩
  add hs _ hadd := by
    rw [Registry.add_of_frozen hs.2] at hadd
    cases hadd
  question hs := ⟨inv.question hs.1, hs.2⟩

namespace Script

variable {owner : String}

/-- In related sessions a script comes to the same end, and leaves related sessions. -/
theorem run_simulates (sim : Session.Simulation reports adds R) (owner : String) (links : Links)
    (script : Script) (hs : script.ReportsOnly reports) (ha : script.AddsOnly adds) :
    script.RunsAlike R owner links := by
  intro s₁ s₂ h
  induction script generalizing s₁ s₂ with
  | done => exact ⟨rfl, h⟩
  | fail f => exact ⟨rfl, h⟩
  | report r next ih =>
    obtain ⟨hr, hnext⟩ := hs
    -- the answers are the same, so both sides go on with the same rest of the script
    rw [run_report, run_report, sim.report_answer h hr]
    exact ih _ (hnext _) (ha _) _ _ (sim.report_step h hr)
  | register kind rule callable handler next _ ih =>
    obtain ⟨hadds, hnext⟩ := ha
    rcases sim.add owner h hadds with ⟨f, h₁, h₂⟩ | ⟨r₁, r₂, h₁, h₂, hafter⟩
    · simp only [run, h₁, h₂]
      exact ih _ (hs _) (hnext _) _ _ h
    · simp only [run, h₁, h₂]
      exact ih _ (hs _) (hnext _) _ _ hafter
  | extendsClass type name library next ih =>
    rw [run_extendsClass, run_extendsClass, sim.question_answer h]
    exact ih _ (hs _) (ha _) _ _ (sim.question_step h)
  | locate node next ih => exact ih _ (hs _) (ha _) _ _ h

/-- A script keeps an invariant. -/
theorem run_preserves (inv : Session.Invariant reports adds P) (owner : String) (links : Links)
    (script : Script) (hs : script.ReportsOnly reports) (ha : script.AddsOnly adds) {s : Session}
    (h : P s) : P (script.run owner links s).2 :=
  (run_simulates inv.simulation owner links script hs ha s s ⟨rfl, h⟩).2.2

end Script

end

end TreeLint
