/-
What a reporter holds after any calls.

Rules declare what they may report, and report.  A report that fails, for whatever reason,
leaves nothing behind.  Of the reports that do not fail the reporter keeps the first of every key,
up to the limit of findings, and counts the others: those whose key is recorded, and those whose key
is new but which come after the limit was reached.  The key of a dropped report is not recorded, and
a report of a recorded key is a duplicate also after the limit was reached.

What a reporter holds is told by the reports that did not fail (`Reporter.Holds`).  Every
report keeps this (`Reporter.Holds.report_any`), hence all calls do:
`Reporter.Holds.performAll`.
-/
import Mathlib.Data.List.Forall2
import TreeLint.Proofs.Run.Event
namespace TreeLint

namespace Report

/-- The reports of a list that are the first of their key, leaving out the keys that were met
before. -/
def firsts : List FindingKey → List Report → List Report
  | _, [] => []
  | met, report :: rest =>
    if report.key ∈ met then firsts met rest
    else report :: firsts (report.key :: met) rest

variable {met : List FindingKey} {reports : List Report} {report : Report}

lemma firsts_append_of_mem (h : report.key ∈ met ∨ report.key ∈ reports.map key) :
    firsts met (reports ++ [report]) = firsts met reports := by
  induction reports generalizing met with
  | nil => simpa [firsts] using h
  | cons first rest ih =>
    rw [List.map_cons, List.mem_cons] at h
    rw [List.cons_append, firsts, firsts]
    split
    · next hmet =>
      refine ih ?_
      rcases h with h | h | h
      · exact .inl h
      · exact .inl (h ▸ hmet)
      · exact .inr h
    · rw [ih]
      rw [List.mem_cons]
      tauto

lemma firsts_append_of_not_mem (hmet : report.key ∉ met) (hnew : report.key ∉ reports.map key) :
    firsts met (reports ++ [report]) = firsts met reports ++ [report] := by
  induction reports generalizing met with
  | nil => simp [firsts, hmet]
  | cons first rest ih =>
    rw [List.map_cons, List.mem_cons, not_or] at hnew
    rw [List.cons_append, firsts, firsts]
    split
    · exact ih hmet hnew.2
    · rw [ih (by simpa using ⟨hnew.1, hmet⟩) hnew.2, List.cons_append]

/-- The first reports of their keys have the keys that the list has, but for those met before. -/
lemma mem_map_key_firsts (met : List FindingKey) (reports : List Report) (k : FindingKey) :
    k ∈ (firsts met reports).map key ↔ k ∈ reports.map key ∧ k ∉ met := by
  induction reports generalizing met with
  | nil => simp [firsts]
  | cons first rest ih =>
    rw [firsts, List.map_cons, List.mem_cons]
    split
    · next hmet =>
      rw [ih, and_congr_left_iff]
      exact fun hk => ⟨.inr, fun hor => hor.resolve_left fun heq => hk (heq ▸ hmet)⟩
    · next hmet =>
      rw [List.map_cons, List.mem_cons, ih, List.mem_cons]
      constructor
      · rintro (rfl | ⟨hk, hne⟩)
        · exact ⟨.inl rfl, hmet⟩
        · exact ⟨.inr hk, fun h => hne (.inr h)⟩
      · rintro ⟨hor, hk⟩
        by_cases heq : k = first.key
        · exact .inl heq
        · exact .inr ⟨hor.resolve_left heq, fun h => h.elim heq hk⟩

lemma nodup_map_key_firsts (met : List FindingKey) (reports : List Report) :
    ((firsts met reports).map key).Nodup := by
  induction reports generalizing met with
  | nil => exact List.nodup_nil
  | cons first rest ih =>
    rw [firsts]
    split
    · exact ih met
    · rw [List.map_cons, List.nodup_cons]
      refine ⟨fun hmem => ?_, ih _⟩
      exact ((mem_map_key_firsts _ _ _).1 hmem).2 List.mem_cons_self

end Report

namespace Reporter

/-- The members of a list up to a limit of their number, if there is one. -/
def upTo {α : Type} (limit : Option Nat) (l : List α) : List α :=
  match limit with
  | none => l
  | some n => l.take n

/-! ### Limits -/

variable {r : Reporter} {cap : Option Nat}

lemma isFull_eq (h : r.limit = cap.map fun n => (n : Int)) :
    r.isFull = cap.any (· ≤ r.findings.length) := by
  rw [isFull, h]
  cases cap with
  | none => rfl
  | some n => simp

lemma upTo_subset {α : Type} (limit : Option Nat) (l : List α) : upTo limit l ⊆ l := by
  cases limit with
  | none => exact List.Subset.refl l
  | some n => exact List.take_subset n l

/-- A list that is longer than the limit may get longer still. -/
lemma upTo_append_of_full {α : Type} {l more : List α}
    (h : cap.any (· ≤ (upTo cap l).length) = true) : upTo cap (l ++ more) = upTo cap l := by
  cases cap with
  | none => cases h
  | some n =>
    simp only [Option.any_some, upTo, List.length_take, decide_eq_true_eq] at h
    exact List.take_append_of_le_length (by omega)

/-- What is shorter than the limit is the whole list, and there is room for one more. -/
lemma upTo_append_of_not_full {α : Type} {l : List α} {a : α}
    (h : cap.any (· ≤ (upTo cap l).length) = false) :
    upTo cap l = l ∧ upTo cap (l ++ [a]) = l ++ [a] := by
  cases cap with
  | none => exact ⟨rfl, rfl⟩
  | some n =>
    simp only [Option.any_some, upTo, List.length_take, decide_eq_false_iff_not] at h ⊢
    refine ⟨List.take_of_length_le (by omega), List.take_of_length_le ?_⟩
    rw [List.length_append, List.length_singleton]
    omega

/-! ### Calls -/

/-- A call of a reporter. -/
inductive Call where
  /-- A rule declares its kinds. -/
  | declare (card : RuleCard)
  /-- A rule reports. -/
  | report (report : Report)

section

variable [Machine]

/-- The reporter after a call.  A declaration that lists something else than kinds fails. -/
def perform (r : Reporter) : Call → Reporter
  | .declare card =>
    match card.codeIds with
    | .ok ids => r.declare card.name ids
    | .error _ => r
  | .report report => (r.report report).2

/-- The reporter after some calls, one after the other. -/
def performAll (r : Reporter) (calls : List Call) : Reporter := calls.foldl perform r

end

/-- A report and the reporter that it is made to. -/
structure Entry where
  /-- The reporter before the report. -/
  before : Reporter
  /-- The report. -/
  report : Report

namespace Entry

/-- Whether the key of the report is recorded already. -/
def isRecorded (e : Entry) : Bool :=
  (e.before.findings.map Finding.key).contains e.report.key

/-- Whether the reporter holds as many findings as it may. -/
def isLate (cap : Option Nat) (e : Entry) : Bool := cap.any (· ≤ e.before.findings.length)

variable [Machine]

/-- What the rule learns of its report. -/
def answer (e : Entry) : Except Fault (Option Finding) := (e.before.report e.report).1

/-- The reporter after the report. -/
def after (e : Entry) : Reporter := (e.before.report e.report).2

/-- Whether the report did not fail. -/
def isTaken (e : Entry) : Bool := e.answer.isOk

variable (e : Entry)

lemma after_of_error {f : Fault} (h : e.answer = .error f) : e.after = e.before := by
  rw [answer] at h
  rcases e.before.report_cases e.report with
    ⟨_, heq⟩ | ⟨-, heq⟩ | ⟨-, -, heq⟩ | ⟨-, -, finding, -, heq⟩ <;> rw [heq] at h
  · rw [after, heq]
  · cases h
  · cases h
  · cases h

/-- A report answers with the finding that it appends. -/
lemma answer_eq_some_iff {f : Finding} :
    e.answer = .ok (some f) ↔ e.after.findings = e.before.findings ++ [f] := by
  have hnone : e.before.findings ≠ e.before.findings ++ [f] := by simp
  rw [answer, after]
  rcases e.before.report_cases e.report with
    ⟨_, heq⟩ | ⟨-, heq⟩ | ⟨-, -, heq⟩ | ⟨-, -, finding, -, heq⟩ <;> rw [heq]
  · exact iff_of_false (by simp) hnone
  · exact iff_of_false (by simp) hnone
  · exact iff_of_false (by simp) hnone
  · simp [withFinding]

end Entry

/-- The reports of some that are the first of their key. -/
def distinct (made : List Entry) : List Report := Report.firsts [] (made.map Entry.report)

section

variable [Machine]

/-- The reports among some calls, each with the reporter that it is made to. -/
def entries : List Call → Reporter → List Entry
  | [], _ => []
  | .declare card :: rest, r => entries rest (r.perform (.declare card))
  | .report report :: rest, r => ⟨r, report⟩ :: entries rest (r.perform (.report report))

/-- The reports among some calls that do not fail. -/
def taken (calls : List Call) (r : Reporter) : List Entry := (entries calls r).filter Entry.isTaken

/-- Whether a finding is what a reporter makes of a report: it has the message of the report, and
the location of its span. -/
def Makes (r : Reporter) (report : Report) (f : Finding) : Prop :=
  ∃ location message, r.tree.location report.span.start = .ok location ∧
    report.code.format report.arguments = .ok message ∧ f = r.findingOf report message location

end

variable [Machine] {start : Reporter} {made : List Entry} {report : Report}

lemma Makes.map_key_eq {reports : List Report} {findings : List Finding}
    (h : List.Forall₂ start.Makes reports findings) :
    findings.map Finding.key = reports.map Report.key := by
  induction h with
  | nil => rfl
  | cons hmakes _ ih =>
    obtain ⟨location, message, -, -, rfl⟩ := hmakes
    rw [List.map_cons, List.map_cons, ih]
    rfl

/-! ### The law of reports -/

/-- What a reporter that was fresh at the start holds after some reports that did not fail. -/
structure Holds (start : Reporter) (cap : Option Nat) (made : List Entry) (r : Reporter) :
    Prop where
  tree_eq : r.tree = start.tree
  severities_eq : r.severities = start.severities
  limit_eq : r.limit = cap.map fun n => (n : Int)
  findings : List.Forall₂ start.Makes (upTo cap (distinct made)) r.findings
  seen : ∀ k, k ∈ r.seen ↔ k ∈ r.findings.map Finding.key
  duplicates : r.duplicates = made.countP Entry.isRecorded
  dropped : r.dropped = made.countP fun e => !e.isRecorded && e.isLate cap
  total : r.findings.length + r.duplicates + r.dropped = made.length

namespace Holds

lemma mem_seen_iff (h : Holds start cap made r) (k : FindingKey) :
    k ∈ r.seen ↔ k ∈ (upTo cap (distinct made)).map Report.key := by
  rw [h.seen, Makes.map_key_eq h.findings]

lemma isFull_eq (h : Holds start cap made r) :
    r.isFull = cap.any (· ≤ (upTo cap (distinct made)).length) := by
  rw [Reporter.isFull_eq h.limit_eq, h.findings.length_eq]

lemma isRecorded_iff (h : Holds start cap made r) (report : Report) :
    Entry.isRecorded ⟨r, report⟩ = true ↔ report.key ∈ r.seen := by
  rw [Entry.isRecorded, List.contains_iff_mem, h.seen]

lemma declare (h : Holds start cap made r) (rule : String) (ids : List String) :
    Holds start cap made (r.declare rule ids) :=
  ⟨h.tree_eq, h.severities_eq, h.limit_eq, h.findings, h.seen, h.duplicates, h.dropped, h.total⟩

lemma report_recorded (h : Holds start cap made r) (hseen : report.key ∈ r.seen) :
    Holds start cap (made ++ [⟨r, report⟩]) { r with duplicates := r.duplicates + 1 } := by
  have hrecorded := (h.isRecorded_iff report).2 hseen
  -- a recorded key is the key of a report that was made before
  have hdistinct : distinct (made ++ [⟨r, report⟩]) = distinct made := by
    rw [distinct, List.map_append, distinct]
    refine Report.firsts_append_of_mem (.inr ?_)
    have hmem := List.map_subset _ (upTo_subset _ _) ((h.mem_seen_iff _).1 hseen)
    exact ((Report.mem_map_key_firsts _ _ _).1 hmem).1
  refine ⟨h.tree_eq, h.severities_eq, h.limit_eq, hdistinct ▸ h.findings, h.seen, ?_, ?_, ?_⟩
  · rw [List.countP_append, List.countP_singleton, if_pos hrecorded, h.duplicates]
  · simp [List.countP_append, hrecorded, h.dropped]
  · simp only [List.length_append, List.length_singleton, ← h.total]
    omega

/-- A report of a new key that comes after the limit was reached is counted as dropped. -/
lemma report_late (h : Holds start cap made r) (hseen : report.key ∉ r.seen)
    (hfull : r.isFull = true) :
    Holds start cap (made ++ [⟨r, report⟩]) { r with dropped := r.dropped + 1 } := by
  have hrecorded : Entry.isRecorded ⟨r, report⟩ = false := by
    rw [← Bool.not_eq_true, h.isRecorded_iff]
    exact hseen
  have hlate : Entry.isLate cap ⟨r, report⟩ = true :=
    (Reporter.isFull_eq h.limit_eq).symm.trans hfull
  -- the report may be the first of its key, but then it comes behind the limit
  have hdistinct : upTo cap (distinct (made ++ [⟨r, report⟩])) = upTo cap (distinct made) := by
    rw [distinct, List.map_append]
    by_cases hmem : report.key ∈ (made.map Entry.report).map Report.key
    · exact congrArg _ (Report.firsts_append_of_mem (.inr hmem))
    · have hfirsts := Report.firsts_append_of_not_mem (List.not_mem_nil (a := report.key)) hmem
      exact (congrArg _ hfirsts).trans (upTo_append_of_full (h.isFull_eq ▸ hfull))
  refine ⟨h.tree_eq, h.severities_eq, h.limit_eq, hdistinct ▸ h.findings, h.seen, ?_, ?_, ?_⟩
  · simp [List.countP_append, hrecorded, h.duplicates]
  · simp [List.countP_append, hrecorded, hlate, h.dropped]
  · simp only [List.length_append, List.length_singleton, ← h.total]
    omega

/-- A report of a new key before the limit is reached makes a finding. -/
lemma report_new (h : Holds start cap made r) (hseen : report.key ∉ r.seen)
    (hfull : r.isFull = false) {f : Finding} (hfinding : r.finding report = .ok f) :
    Holds start cap (made ++ [⟨r, report⟩]) (r.withFinding f) := by
  have hrecorded : Entry.isRecorded ⟨r, report⟩ = false := by
    rw [← Bool.not_eq_true, h.isRecorded_iff]
    exact hseen
  have hlate : Entry.isLate cap ⟨r, report⟩ = false :=
    (Reporter.isFull_eq h.limit_eq).symm.trans hfull
  rw [h.isFull_eq] at hfull
  obtain ⟨hall, hmore⟩ := upTo_append_of_not_full (a := report) hfull
  -- as the limit was not reached before, nothing was dropped: all first reports are recorded
  have hfirst : report.key ∉ (made.map Entry.report).map Report.key := by
    intro hmem
    refine hseen ((h.mem_seen_iff _).2 ?_)
    rw [hall]
    exact (Report.mem_map_key_firsts _ _ _).2 ⟨hmem, List.not_mem_nil⟩
  have hdistinct : distinct (made ++ [⟨r, report⟩]) = distinct made ++ [report] := by
    rw [distinct, List.map_append, distinct]
    exact Report.firsts_append_of_not_mem List.not_mem_nil hfirst
  have hmakes : start.Makes report f := by
    obtain ⟨location, message, hlocation, hmessage, rfl⟩ := (r.finding_eq_ok_iff report).1 hfinding
    refine ⟨location, message, h.tree_eq ▸ hlocation, hmessage, ?_⟩
    simp only [findingOf, h.tree_eq, h.severities_eq]
  refine ⟨h.tree_eq, h.severities_eq, h.limit_eq, ?_, fun k => ?_, ?_, ?_, ?_⟩
  · rw [hdistinct, hmore]
    exact List.rel_append (hall ▸ h.findings) (.cons hmakes .nil)
  · simp only [withFinding]
    rw [List.mem_cons, h.seen, List.map_append, List.mem_append, List.map_singleton,
      List.mem_singleton, or_comm]
  · simp [withFinding, List.countP_append, hrecorded, h.duplicates]
  · simp [withFinding, List.countP_append, hlate, h.dropped]
  · simp only [withFinding, List.length_append, List.length_singleton, ← h.total]
    omega

/-- Every report keeps the law: one that fails changes nothing, and the others are noted. -/
lemma report_any (h : Holds start cap made r) (report : Report) :
    Holds start cap (made ++ [⟨r, report⟩].filter Entry.isTaken) (r.report report).2 := by
  have htaken : Entry.isTaken ⟨r, report⟩ = (r.report report).1.isOk := rfl
  rw [List.filter_singleton, htaken]
  rcases r.report_cases report with
    ⟨f, heq⟩ | ⟨hseen, heq⟩ | ⟨hseen, hfull, heq⟩ | ⟨hseen, hfull, finding, hfinding, heq⟩ <;>
    rw [heq]
  · exact (List.append_nil made).symm ▸ h
  · exact h.report_recorded hseen
  · exact h.report_late hseen hfull
  · exact h.report_new hseen hfull hfinding

lemma nodup (h : Holds start cap made r) : (r.findings.map Finding.key).Nodup := by
  rw [Makes.map_key_eq h.findings]
  have hfirsts := Report.nodup_map_key_firsts [] (made.map Entry.report)
  cases cap with
  | none => exact hfirsts
  | some n => exact hfirsts.sublist ((List.take_sublist n _).map _)

lemma length_le (h : Holds start cap made r) {n : Nat} (hcap : cap = some n) :
    r.findings.length ≤ n := by
  subst hcap
  rw [← h.findings.length_eq]
  exact List.length_take_le n _

end Holds

/-- A reporter of a file that was not reported to yet. -/
def fresh (tree : Tree) (strict : Bool) (severities : List (String × String)) (cap : Option Nat) :
    Reporter where
  tree := tree
  strict := strict
  severities := severities
  limit := cap.map fun n => (n : Int)

lemma holds_fresh (tree : Tree) (strict : Bool) (severities : List (String × String))
    (cap : Option Nat) :
    Holds (fresh tree strict severities cap) cap [] (fresh tree strict severities cap) := by
  have hnone : upTo cap (distinct []) = [] := by
    cases cap with
    | none => rfl
    | some n => exact List.take_nil
  exact ⟨rfl, rfl, rfl, hnone ▸ .nil, fun k => Iff.rfl, rfl, rfl, rfl⟩

lemma Holds.performAll (h : Holds start cap made r) (calls : List Call) :
    Holds start cap (made ++ taken calls r) (r.performAll calls) := by
  induction calls generalizing made r with
  | nil => exact (List.append_nil made).symm ▸ h
  | cons c rest ih =>
    cases c with
    | declare card =>
      refine ih ?_
      rw [perform]
      split
      · exact h.declare _ _
      · exact h
    | report report =>
      have hrest := ih (h.report_any report)
      rwa [List.append_assoc, taken, ← List.filter_append] at hrest

/-- **The law of reports.**  Take a reporter with any limit, strict or not, and any calls of it.
A report that fails changes nothing, and one that makes a finding is one that appends it.  The
findings are made of the reports that do not fail and are the first of their key, up to the
limit.  So their keys are distinct, they are the keys seen, and the limit is kept; the reports of
a recorded key are the duplicates, the reports of a new key past the limit are the dropped ones,
and every report that does not fail is counted once. -/
theorem report_law (tree : Tree) (strict : Bool) (severities : List (String × String))
    (cap : Option Nat) (calls : List Call) :
    let start := fresh tree strict severities cap
    let last := start.performAll calls
    (∀ e ∈ entries calls start,
      (∀ f, e.answer = .error f → e.after = e.before) ∧
      ∀ f, e.answer = .ok (some f) ↔ e.after.findings = e.before.findings ++ [f]) ∧
    List.Forall₂ start.Makes (upTo cap (distinct (taken calls start))) last.findings ∧
    (last.findings.map Finding.key).Nodup ∧
    (∀ k, k ∈ last.seen ↔ k ∈ last.findings.map Finding.key) ∧
    (∀ n, cap = some n → last.findings.length ≤ n) ∧
    last.duplicates = (taken calls start).countP Entry.isRecorded ∧
    last.dropped = ((taken calls start).countP fun e => !e.isRecorded && e.isLate cap) ∧
    last.findings.length + last.duplicates + last.dropped = (taken calls start).length := by
  intro start last
  have hholds := (holds_fresh tree strict severities cap).performAll calls
  refine ⟨fun e _ => ⟨fun f => e.after_of_error, fun f => e.answer_eq_some_iff⟩, hholds.findings,
    hholds.nodup, hholds.seen, fun n hcap => hholds.length_le hcap, hholds.duplicates,
    hholds.dropped, hholds.total⟩

end Reporter

end TreeLint
