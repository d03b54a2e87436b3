/-
Both formats of the output tell the same.

The text format takes every finding; the machine-readable one checks its records by a
protocol.  For any lawful protocol the records of texts fit exactly if the findings are in
range (`Output.all_accepts_findingFields_iff`), and what the analysis measured always fits:
its times are not negative and not too large to be added.  So the report fails exactly if a
finding is out of range or the number of rules is negative, and otherwise its documents show
the findings one by one, in the order in which the text prints them: the lines of the text
can be read off them (`Document.line?`).  The calls of a rule are summed over the files
(`Tallies`).  The document itself can be read off its text, because lawful protocols write
different documents differently.

All of it is said of the results of an analysis: `Analysis.render_analyzeTrees`.
-/
import Mathlib.Algebra.BigOperators.Group.List.Basic
import Mathlib.Algebra.Ring.Int.Defs
import TreeLint.Output.Format
import TreeLint.Proofs.Output.Document
import TreeLint.Proofs.Run.Range
import TreeLint.Proofs.Run.Vocabulary
namespace TreeLint

/-! ### What documents show -/

namespace Document

/-- The value of a field. -/
def field? (name : String) : Document → Option Document
  | object fields => fields.lookup name
  | _ => none

/-- The text that a document is. -/
def text? : Document → Option String
  | string s => some s
  | _ => none

/-- The integer that a document is. -/
def int? : Document → Option Int
  | int n => some n
  | _ => none

/-- Whether a document shows a finding. -/
structure ShowsFinding [Machine] (d : Document) (f : Finding) : Prop where
  rule : d.field? "rule" = some (.string f.rule)
  code : d.field? "code" = some (.string f.code.id)
  severity : d.field? "severity" = some (.string f.severity)
  message : d.field? "message" = some (.string f.message)
  correction : d.field? "correction" = some (.ofOption f.code.correction)
  arguments : ∃ texts, Value.texts f.arguments = .ok texts ∧
    d.field? "arguments" = some (.array (texts.map .string))
  file : d.field? "file_path" = some (.string f.file)
  start : d.field? "start_byte" = some (.int f.span.start)
  stop : d.field? "end_byte" = some (.int f.span.stop)
  line : d.field? "line" = some (.int f.location.line)
  column : d.field? "column" = some (.int f.location.column)

/-- Whether a document shows a failure. -/
structure ShowsFailure (d : Document) (f : Failure) : Prop where
  rule : d.field? "rule" = some (.string f.rule)
  nodeKind : d.field? "node_kind" = some (.string f.nodeKind)
  file : d.field? "file_path" = some (.string f.file)
  start : d.field? "start_byte" = some (.int f.span.start)
  stop : d.field? "end_byte" = some (.int f.span.stop)
  error : d.field? "error" = some (.string f.error)

/-- The line of text that a document of a finding stands for, if the line has a text. -/
def line? (d : Document) : Option (Except TextFault String) := do
  let rule ← (d.field? "rule").bind text?
  let severity ← (d.field? "severity").bind text?
  let message ← (d.field? "message").bind text?
  let file ← (d.field? "file_path").bind text?
  let line ← (d.field? "line").bind int?
  let column ← (d.field? "column").bind int?
  return do
    let line ← Value.decimal line
    let column ← Value.decimal column
    return s!"{rule}: {severity}: {message} @ {file}:{line}:{column}"

section

variable [Machine]

/-- A document that shows a finding stands for the line that the text prints of it. -/
lemma ShowsFinding.line?_eq {d : Document} {f : Finding} (h : d.ShowsFinding f) :
    d.line? = some f.render := by
  simp only [line?, h.rule, h.severity, h.message, h.file, h.line, h.column]
  rfl

lemma mapM_line?_eq {ds : List Document} {fs : List Finding}
    (h : List.Forall₂ ShowsFinding ds fs) : ds.mapM line? = some (fs.map Finding.render) := by
  induction h with
  | nil => rfl
  | cons hshows _ ih =>
    rw [List.mapM_cons, hshows.line?_eq, ih]
    rfl

end

end Document

/-! ### Texts of results -/

open Document (IsText)

/-- Whether the texts of a finding are made of characters only. -/
structure Finding.IsTextual (f : Finding) : Prop where
  rule : IsText f.rule
  code : IsText f.code.id
  message : IsText f.message
  correction : ∀ t ∈ f.code.correction, IsText t
  file : IsText f.file

/-- Whether every argument of a finding has a text that is made of characters only. -/
def Finding.HasArgumentTexts [Machine] (f : Finding) : Prop :=
  ∃ texts, Value.texts f.arguments = .ok texts ∧ ∀ s ∈ texts, IsText s

/-- Whether the texts of a failure are made of characters only. -/
structure Failure.IsTextual (f : Failure) : Prop where
  rule : IsText f.rule
  nodeKind : IsText f.nodeKind
  file : IsText f.file
  error : IsText f.error

/-- Whether the texts of a result are made of characters only. -/
structure FileResult.IsTextual (r : FileResult) : Prop where
  findings : ∀ f ∈ r.findings, f.IsTextual
  failures : ∀ f ∈ r.failures, f.IsTextual
  rules : ∀ t ∈ r.timing, IsText t.rule

namespace Output

/-! ### Records -/

section Records

variable {p : Protocol} {f : Finding} {texts : List String}

lemma isText_of_mem_severities {s : String} (h : s ∈ severities) : IsText s := by
  have hall : ∀ s ∈ severities, IsText s := by decide
  exact hall s h

lemma isPlain_ofOption {s : Option String} (h : ∀ t ∈ s, IsText t) :
    (Document.ofOption s).IsPlain := by
  cases s with
  | none => exact .null
  | some t => exact .string (h t rfl)

/-- The fields of a finding fit exactly if the finding is in range. -/
lemma all_accepts_findingFields_iff (hp : p.Lawful) (hf : f.IsTextual)
    (htexts : ∀ s ∈ texts, IsText s) :
    (findingFields f texts).all (fun g => p.accepts g.demand g.value) = true ↔ f.IsInRange := by
  simp only [findingFields, List.all_cons, List.all_nil, hp.text _ hf.rule, hp.text _ hf.code,
    hp.text _ hf.message, hp.text _ hf.file, hp.textOrNothing _ hf.correction, hp.texts _ htexts,
    Bool.true_and, Bool.and_true, Bool.and_eq_true, hp.oneOf, hp.atLeast]
  constructor
  · rintro ⟨hseverity, hstart, hstop, hline, hcolumn⟩
    exact ⟨hseverity, hstart, hstop, hline, hcolumn⟩
  · rintro ⟨hseverity, hstart, hstop, hline, hcolumn⟩
    exact ⟨hseverity, hstart, hstop, hline, hcolumn⟩

/-- The names and the values of fields as an object. -/
def objectOf (fs : List Field) : Document := .object (fs.map fun g => (g.name, g.value))

lemma isPlain_objectOf {fs : List Field} (hnames : ∀ name ∈ fs.map Field.name, IsText name)
    (hvalues : ∀ value ∈ fs.map Field.value, value.IsPlain) : (objectOf fs).IsPlain := by
  rw [List.forall_mem_map] at hnames hvalues
  exact .object (List.forall_mem_map.2 hnames) (List.forall_mem_map.2 hvalues)

lemma isPlain_findingFields (hf : f.IsTextual) (hseverity : f.severity ∈ severities)
    (htexts : ∀ s ∈ texts, IsText s) : (objectOf (findingFields f texts)).IsPlain := by
  have hnames : ∀ name ∈ ["rule", "code", "severity", "message", "correction", "arguments",
      "file_path", "start_byte", "end_byte", "line", "column"], IsText name := by decide
  refine isPlain_objectOf hnames ?_
  simp only [findingFields, List.map_cons, List.map_nil, List.forall_mem_cons]
  exact ⟨.string hf.rule, .string hf.code, .string (isText_of_mem_severities hseverity),
    .string hf.message, isPlain_ofOption hf.correction,
    .array (List.forall_mem_map.2 fun s hs => .string (htexts s hs)), .string hf.file, .int _,
    .int _, .int _, .int _, nofun⟩

/-- A finding in range has a record, which shows it; any other has none. -/
lemma findingDocument_cases [Machine] (hp : p.Lawful) (hf : f.IsTextual)
    (harguments : f.HasArgumentTexts) :
    (f.IsInRange ∧ ∃ d : Document, findingDocument p f = .ok d ∧ d.IsPlain ∧ d.ShowsFinding f) ∨
      (¬f.IsInRange ∧ findingDocument p f = .error .outOfRange) := by
  obtain ⟨texts, hshown, htexts⟩ := harguments
  have hfits := all_accepts_findingFields_iff hp hf htexts
  have hrecord : findingDocument p f = p.record (findingFields f texts) := by
    rw [findingDocument, hshown]
    rfl
  rw [hrecord, Protocol.record, Protocol.fields]
  by_cases hrange : f.IsInRange
  · rw [if_pos (hfits.2 hrange)]
    refine .inl ⟨hrange, _, rfl, isPlain_findingFields hf hrange.severity htexts, ?_⟩
    constructor <;> first
      | rfl
      | exact ⟨texts, hshown, rfl⟩
  · rw [if_neg fun hall => hrange (hfits.1 hall)]
    exact .inr ⟨hrange, rfl⟩

/-- A failure has a record, which shows it. -/
lemma exists_failureDocument (hp : p.Lawful) {f : Failure} (hf : f.IsTextual) :
    ∃ d : Document, failureDocument p f = .ok d ∧ d.IsPlain ∧ d.ShowsFailure f := by
  have hfits : (failureFields f).all (fun g => p.accepts g.demand g.value) = true := by
    simp only [failureFields, List.all_cons, List.all_nil, hp.text _ hf.rule,
      hp.text _ hf.nodeKind, hp.text _ hf.file, hp.text _ hf.error, hp.integer, Bool.and_self]
  have hnames : ∀ name ∈ ["rule", "node_kind", "file_path", "start_byte", "end_byte", "error"],
      IsText name := by decide
  refine ⟨objectOf (failureFields f), ?_, isPlain_objectOf hnames ?_, by constructor <;> rfl⟩
  · rw [failureDocument, Protocol.record, Protocol.fields, if_pos hfits]
    rfl
  · simp only [failureFields, List.map_cons, List.map_nil, List.forall_mem_cons]
    exact ⟨.string hf.rule, .string hf.nodeKind, .string hf.file, .int _, .int _,
      .string hf.error, nofun⟩

/-- Things that all have records of some sort. -/
lemma exists_recordsOf {α : Type} {record : α → Except Fault Document}
    {shows : Document → α → Prop} {l : List α}
    (h : ∀ a ∈ l, ∃ d : Document, record a = .ok d ∧ d.IsPlain ∧ shows d a) :
    ∃ ds, recordsOf record l = .ok ds ∧ (∀ d ∈ ds, d.IsPlain) ∧ List.Forall₂ shows ds l := by
  induction l with
  | nil => exact ⟨[], rfl, nofun, .nil⟩
  | cons a rest ih =>
    obtain ⟨ha, hrest⟩ := List.forall_mem_cons.1 h
    obtain ⟨d, hd, hplain, hshows⟩ := ha
    obtain ⟨ds, hds, hplains, hall⟩ := ih hrest
    refine ⟨d :: ds, ?_, List.forall_mem_cons.2 ⟨hplain, hplains⟩, .cons hshows hall⟩
    rw [recordsOf, hd, hds]
    rfl

/-- A single fault is that of the records together. -/
lemma recordsOf_eq_error {α : Type} {record : α → Except Fault Document} {fault : Fault}
    {l : List α} (h : ∀ a ∈ l, (∃ d, record a = .ok d) ∨ record a = .error fault)
    (hfails : ∃ a ∈ l, record a = .error fault) : recordsOf record l = .error fault := by
  induction l with
  | nil =>
    obtain ⟨a, ha, -⟩ := hfails
    cases ha
  | cons a rest ih =>
    obtain ⟨ha, hrest⟩ := List.forall_mem_cons.1 h
    rcases ha with ⟨d, hd⟩ | hfault
    · have hlater : ∃ a ∈ rest, record a = .error fault := by
        obtain ⟨b, hb, hfault⟩ := hfails
        rcases List.mem_cons.1 hb with rfl | hb
        · cases hd.symm.trans hfault
        · exact ⟨b, hb, hfault⟩
      rw [recordsOf, hd, ih hrest hlater]
      rfl
    · rw [recordsOf, hfault]
      rfl

/-- Findings have records exactly if all are in range. -/
lemma recordsOf_findings_cases [Machine] (hp : p.Lawful) {fs : List Finding}
    (hfs : ∀ f ∈ fs, f.IsTextual ∧ f.HasArgumentTexts) :
    ((∀ f ∈ fs, f.IsInRange) ∧ ∃ ds, recordsOf (findingDocument p) fs = .ok ds ∧
        (∀ d ∈ ds, d.IsPlain) ∧ List.Forall₂ Document.ShowsFinding ds fs) ∨
      ((∃ f ∈ fs, ¬f.IsInRange) ∧ recordsOf (findingDocument p) fs = .error .outOfRange) := by
  have hcases := fun f hf => findingDocument_cases hp (hfs f hf).1 (hfs f hf).2
  by_cases hrange : ∀ f ∈ fs, f.IsInRange
  · refine .inl ⟨hrange, exists_recordsOf fun f hf => ?_⟩
    exact ((hcases f hf).resolve_right fun h => h.1 (hrange f hf)).2
  · simp only [not_forall, exists_prop] at hrange
    refine .inr ⟨hrange, recordsOf_eq_error (fun f hf => ?_) ?_⟩
    · exact (hcases f hf).imp (fun ⟨_, d, hd, _⟩ => ⟨d, hd⟩) And.right
    · obtain ⟨f, hf, hout⟩ := hrange
      exact ⟨f, hf, ((hcases f hf).resolve_left fun h => hout h.1).2⟩

end Records

/-! ### The calls of the rules -/

/-- The number of calls under a name. -/
def callsOf (rule : String) (timings : List RuleTotal) : Int :=
  ((timings.filter (·.rule = rule)).map RuleTotal.calls).sum

lemma callsOf_append (rule : String) (before : List RuleTotal) (t : RuleTotal) :
    callsOf rule (before ++ [t]) = callsOf rule before + if t.rule = rule then t.calls else 0 := by
  rw [callsOf, callsOf, List.filter_append, List.map_append, List.sum_append]
  split
  · next h => simp [h]
  · next h => simp [h]

/-- Whether sums are those of some times and calls: under each name that occurs there is one sum, of
all calls under it. -/
structure Tallies (timings sums : List RuleTotal) : Prop where
  nodup : (sums.map RuleTotal.rule).Nodup
  mem_iff : ∀ rule, rule ∈ sums.map RuleTotal.rule ↔ rule ∈ timings.map RuleTotal.rule
  calls : ∀ s ∈ sums, s.calls = callsOf s.rule timings

variable {t s : RuleTotal} {sums timings : List RuleTotal}

/-- A name that is new comes last. -/
lemma map_rule_addTiming (t : RuleTotal) (sums : List RuleTotal) :
    (addTiming t sums).map RuleTotal.rule =
      sums.map RuleTotal.rule ++ if t.rule ∈ sums.map RuleTotal.rule then [] else [t.rule] := by
  induction sums with
  | nil => rfl
  | cons s rest ih =>
    rw [addTiming]
    by_cases hrule : s.rule = t.rule
    · simp [hrule]
    · simp [hrule, ih, Ne.symm hrule]

/-- A sum is one from before under another name, or one to which the calls were added, or a new
one. -/
lemma mem_addTiming (hnodup : (sums.map RuleTotal.rule).Nodup) (hs : s ∈ addTiming t sums) :
    (s ∈ sums ∧ t.rule ≠ s.rule) ∨
    (∃ old ∈ sums, old.rule = t.rule ∧ s.rule = t.rule ∧ s.calls = old.calls + t.calls) ∨
    (t.rule ∉ sums.map RuleTotal.rule ∧ s.rule = t.rule ∧ s.calls = t.calls) := by
  induction sums with
  | nil =>
    rw [List.mem_singleton.1 hs]
    exact .inr (.inr ⟨List.not_mem_nil, rfl, rfl⟩)
  | cons first rest ih =>
    obtain ⟨hfirst, hrest⟩ := List.nodup_cons.1 hnodup
    rw [addTiming] at hs
    split at hs
    · next hrule =>
      rcases List.mem_cons.1 hs with rfl | hs
      · exact .inr (.inl ⟨first, by simp, hrule, hrule, rfl⟩)
      · refine .inl ⟨by simp [hs], fun heq => hfirst ?_⟩
        rw [hrule, heq]
        exact List.mem_map_of_mem hs
    · next hrule =>
      rcases List.mem_cons.1 hs with rfl | hs
      · exact .inl ⟨by simp, Ne.symm hrule⟩
      · rcases ih hrest hs with ⟨hmem, hne⟩ | ⟨old, hold, heq⟩ | ⟨hnew, heq⟩
        · exact .inl ⟨by simp [hmem], hne⟩
        · exact .inr (.inl ⟨old, by simp [hold], heq⟩)
        · exact .inr (.inr ⟨by simp [Ne.symm hrule, hnew], heq⟩)

/-- Adding the times and calls of one more rule keeps the sums. -/
lemma Tallies.addTiming (h : Tallies timings sums) (t : RuleTotal) :
    Tallies (timings ++ [t]) (addTiming t sums) := by
  constructor
  · rw [map_rule_addTiming]
    split
    · rw [List.append_nil]
      exact h.nodup
    · next hnew =>
      rw [← List.concat_eq_append]
      exact List.Nodup.concat hnew h.nodup
  · intro rule
    rw [map_rule_addTiming, List.mem_append, List.map_append, List.mem_append, h.mem_iff]
    split
    · next hold =>
      have hold' := (h.mem_iff _).1 hold
      simp only [List.not_mem_nil, or_false, List.map_singleton, List.mem_singleton]
      exact ⟨.inl, fun hrule => hrule.elim id (fun heq => heq ▸ hold')⟩
    · rfl
  · intro s hs
    rw [callsOf_append]
    rcases mem_addTiming h.nodup hs with
      ⟨hmem, hne⟩ | ⟨old, hold, hrule, hsame, hcalls⟩ | ⟨hnew, hsame, hcalls⟩
    · rw [if_neg hne, h.calls s hmem, Int.add_zero]
    · rw [if_pos hsame.symm, hcalls, h.calls old hold, hrule, hsame]
    -- nothing was called before under a name that is new
    · have hnone : callsOf s.rule timings = 0 := by
        rw [h.mem_iff, ← hsame] at hnew
        rw [callsOf, List.filter_eq_nil_iff.2, List.map_nil, List.sum_nil]
        intro u hu
        simpa using fun heq => hnew (List.mem_map.2 ⟨u, hu, heq⟩)
      rw [if_pos hsame.symm, hnone, hcalls, Int.zero_add]

lemma Tallies.foldl (h : Tallies timings sums) (more : List RuleTotal) :
    Tallies (timings ++ more) (more.foldl (fun sums t => Output.addTiming t sums) sums) := by
  induction more generalizing timings sums with
  | nil =>
    rw [List.append_nil]
    exact h
  | cons t rest ih =>
    have hrest := ih (h.addTiming t)
    rwa [List.append_assoc, List.singleton_append] at hrest

/-- Without measured times no sum is one. -/
lemma totalMs_foldl (hsums : ∀ s ∈ sums, s.totalMs = 0.0)
    (htimings : ∀ t ∈ timings, t.totalMs = 0.0) :
    ∀ s ∈ timings.foldl (fun sums t => Output.addTiming t sums) sums, s.totalMs = 0.0 := by
  have hzero : (0.0 : Float) + 0.0 = 0.0 := by decide +kernel
  have hstep : ∀ (t : RuleTotal) (sums : List RuleTotal), t.totalMs = 0.0 →
      (∀ s ∈ sums, s.totalMs = 0.0) → ∀ s ∈ Output.addTiming t sums, s.totalMs = 0.0 := by
    intro t sums ht hsums
    induction sums with
    | nil => exact List.forall_mem_singleton.2 (by rw [ht]; exact hzero)
    | cons first rest ih =>
      obtain ⟨hfirst, hrest⟩ := List.forall_mem_cons.1 hsums
      rw [Output.addTiming]
      split
      · exact List.forall_mem_cons.2 ⟨by rw [ht, hfirst]; exact hzero, hrest⟩
      · exact List.forall_mem_cons.2 ⟨hfirst, ih hrest⟩
  induction timings generalizing sums with
  | nil => exact hsums
  | cons t rest ih =>
    obtain ⟨ht, hrest⟩ := List.forall_mem_cons.1 htimings
    exact ih (hstep t sums ht hsums) hrest

/-! ### What the analysis measured -/

/-- The number of calls under a name in a file. -/
def callsIn (rule : String) (r : FileResult) : Int :=
  ((r.timing.filter (·.rule = rule)).map RuleTiming.calls).sum

/-- Whether no time was measured in a file. -/
structure IsTimeless (r : FileResult) : Prop where
  timing : ∀ t ∈ r.timing, t.totalMs = .float 0.0
  elapsedMs : r.elapsedMs = .float 0.0

/-- The calls of the rules in all files, with no time. -/
def timingsOf (results : List FileResult) : List RuleTotal :=
  (results.flatMap (·.timing)).map fun t => ⟨t.rule, 0.0, t.calls⟩

lemma callsOf_timingsOf (rule : String) (results : List FileResult) :
    callsOf rule (timingsOf results) = (results.map (callsIn rule)).sum := by
  induction results with
  | nil => rfl
  | cons r rest ih =>
    have hfirst : callsOf rule (r.timing.map fun t => ⟨t.rule, 0.0, t.calls⟩) = callsIn rule r := by
      rw [callsOf, callsIn, List.filter_map, List.map_map]
      rfl
    rw [List.map_cons, List.sum_cons, ← ih, ← hfirst]
    simp only [timingsOf, callsOf, List.flatMap_cons, List.map_append, List.filter_append,
      List.sum_append]

variable {results : List FileResult}

/-- Without measured times the sums of the rules can be formed, and none is a time. -/
lemma exists_totalsOf?_eq (h : ∀ r ∈ results, IsTimeless r) :
    ∃ totals, totalsOf? results = some totals ∧ Tallies (timingsOf results) totals ∧
      ∀ t ∈ totals, t.totalMs = 0.0 := by
  have htimings : ∀ l : List RuleTiming, (∀ t ∈ l, t.totalMs = .float 0.0) →
      l.mapM timingOf? = some (l.map fun t => ⟨t.rule, 0.0, t.calls⟩) := by
    intro l hl
    induction l with
    | nil => rfl
    | cons t rest ih =>
      obtain ⟨ht, hrest⟩ := List.forall_mem_cons.1 hl
      rw [List.mapM_cons, timingOf?, ht, ih hrest]
      rfl
  have hzero : ∀ t ∈ results.flatMap (·.timing), t.totalMs = .float 0.0 := by
    intro t ht
    obtain ⟨r, hr, ht⟩ := List.mem_flatMap.1 ht
    exact (h r hr).timing t ht
  have hnone : Tallies [] [] := ⟨List.nodup_nil, fun _ => Iff.rfl, fun _ hs => nomatch hs⟩
  refine ⟨_, ?_, hnone.foldl (timingsOf results), totalMs_foldl nofun ?_⟩
  · rw [totalsOf?, htimings _ hzero]
    rfl
  · exact List.forall_mem_map.2 fun _ _ => rfl

/-- Without measured times the time of all files is zero. -/
lemma exists_elapsedOf?_eq (h : ∀ r ∈ results, IsTimeless r) :
    ∃ elapsed, elapsedOf? results = some elapsed ∧ elapsedTime elapsed = .ok 0.0 := by
  have hsum : ∀ (rest : List FileResult) (start : Number), (∀ r ∈ rest, IsTimeless r) →
      (start = .int 0 ∨ start = .float 0.0) →
      ∃ x, (rest.map (·.elapsedMs)).foldlM Number.add? start = some x ∧
        (x = .int 0 ∨ x = .float 0.0) := by
    intro rest
    induction rest with
    | nil => exact fun start _ hstart => ⟨start, rfl, hstart⟩
    | cons r rest ih =>
      intro start hrest hstart
      have hstep : Number.add? start r.elapsedMs = some (.float 0.0) := by
        rw [(hrest r (by simp)).elapsedMs]
        rcases hstart with rfl | rfl <;> rfl
      rw [List.map_cons, List.foldlM_cons, hstep]
      exact ih (.float 0.0) (fun r' hr' => hrest r' (by simp [hr'])) (.inr rfl)
  obtain ⟨x, hx, hzero⟩ := hsum results (.int 0) h (.inl rfl)
  refine ⟨x, hx, ?_⟩
  rcases hzero with rfl | rfl <;> rfl

/-! ### Reports -/

section

/-- The report that is made of records and sums. -/
def documentOf (results : List FileResult) (count : Int) (findings failures : List Document)
    (totals : List RuleTotal) : Document :=
  .object ((headFields results count).map (fun g => (g.name, g.value)) ++ [
    ("findings", .array findings),
    ("failures", .array failures),
    ("metrics", .object [("total_ms", .float 0.0), ("rules", .object (totals.map totalDocument))])])

variable {p : Protocol} {count : Int}

lemma fields_eq_ok {fs : List Field} (h : ∀ g ∈ fs, p.accepts g.demand g.value = true) :
    p.fields fs = .ok (fs.map fun g => (g.name, g.value)) :=
  if_pos (List.all_eq_true.2 h)

/-- The fields about the whole of a report fit if the number of rules is not negative. -/
lemma fields_headFields (hp : p.Lawful) (results : List FileResult) (count : Int) :
    p.fields (headFields results count) =
      if 0 ≤ count then .ok ((headFields results count).map fun g => (g.name, g.value))
      else .error .outOfRange := by
  have hprotocol : IsText protocolVersion := by decide
  have hengine : IsText engineVersion := by decide
  have hfits : (headFields results count).all (fun g => p.accepts g.demand g.value) = true ↔
      0 ≤ count := by
    simp only [headFields, List.all_cons, List.all_nil, hp.text _ hprotocol, hp.text _ hengine,
      Bool.true_and, Bool.and_true, Bool.and_eq_true, hp.atLeast, Int.natCast_nonneg, true_and]
  by_cases hcount : 0 ≤ count
  · rw [if_pos hcount]
    exact if_pos (hfits.2 hcount)
  · rw [if_neg hcount]
    exact if_neg fun hall => hcount (hfits.1 hall)

/-- The names of the rules that were called fit. -/
lemma fields_nameFields (hp : p.Lawful) (htexts : ∀ r ∈ results, r.IsTextual)
    {totals : List RuleTotal} (htallies : Tallies (timingsOf results) totals) :
    (∀ t ∈ totals, IsText t.rule) ∧ ∃ names, p.fields (nameFields totals) = .ok names := by
  have hnames : ∀ t ∈ totals, IsText t.rule := by
    intro t ht
    obtain ⟨u, hu, hrule⟩ := List.mem_map.1 ((htallies.mem_iff _).1 (List.mem_map_of_mem ht))
    obtain ⟨timing, htiming, rfl⟩ := List.mem_map.1 hu
    obtain ⟨r, hr, hmem⟩ := List.mem_flatMap.1 htiming
    rw [← hrule]
    exact (htexts r hr).rules timing hmem
  exact ⟨hnames, _, fields_eq_ok (List.forall_mem_map.2 fun t ht => hp.text _ (hnames t ht))⟩

/-- The sums of the rules are shown by the names of the rules. -/
lemma calls_totalDocument {totals : List RuleTotal}
    (htallies : Tallies (timingsOf results) totals) :
    ((totals.map totalDocument).map Prod.fst).Nodup ∧
    (∀ rule, rule ∈ (totals.map totalDocument).map Prod.fst ↔
      ∃ r ∈ results, ∃ t ∈ r.timing, t.rule = rule) ∧
    ∀ e ∈ totals.map totalDocument,
      e.2.field? "call_count" = some (.int (results.map (callsIn e.1)).sum) := by
  have hnames : (totals.map totalDocument).map Prod.fst = totals.map RuleTotal.rule := by
    rw [List.map_map]
    rfl
  refine ⟨?_, fun rule => ?_, List.forall_mem_map.2 fun s hs => ?_⟩
  · rw [hnames]
    exact htallies.nodup
  · rw [hnames, htallies.mem_iff, timingsOf, List.map_map]
    simp only [List.mem_map, List.mem_flatMap, Function.comp_apply]
    constructor
    · rintro ⟨t, ⟨r, hr, ht⟩, rfl⟩
      exact ⟨r, hr, t, ht, rfl⟩
    · rintro ⟨r, hr, t, ht, rfl⟩
      exact ⟨t, ⟨r, hr, ht⟩, rfl⟩
  · show some (Document.int s.calls) = some (.int (results.map (callsIn s.rule)).sum)
    rw [htallies.calls s hs, callsOf_timingsOf]

lemma isPlain_totalDocuments {totals : List RuleTotal} (hnames : ∀ t ∈ totals, IsText t.rule)
    (hzero : ∀ t ∈ totals, t.totalMs = 0.0) :
    (Document.object (totals.map totalDocument)).IsPlain := by
  refine .object (List.forall_mem_map.2 hnames) (List.forall_mem_map.2 fun t ht => ?_)
  refine .object ?_ ?_
  · rw [List.forall_mem_cons, List.forall_mem_singleton]
    exact ⟨(by decide : IsText "total_ms"), (by decide : IsText "call_count")⟩
  · rw [hzero t ht, List.forall_mem_cons, List.forall_mem_singleton]
    exact ⟨.zero, .int _⟩

/-- A report that is made of plain documents is plain. -/
lemma isPlain_documentOf {findings failures : List Document} {totals : List RuleTotal}
    (hfindings : ∀ d ∈ findings, d.IsPlain) (hfailures : ∀ d ∈ failures, d.IsPlain)
    (htotals : (Document.object (totals.map totalDocument)).IsPlain) :
    (documentOf results count findings failures totals).IsPlain := by
  have hnames : ∀ name ∈ ["protocol", "engine_version", "files_scanned", "rules_run", "findings",
      "failures", "metrics"], IsText name := by decide
  have hmetrics : (Document.object [("total_ms", .float 0.0),
      ("rules", .object (totals.map totalDocument))]).IsPlain := by
    refine .object ?_ ?_ <;> rw [List.forall_mem_cons, List.forall_mem_singleton]
    · exact ⟨(by decide : IsText "total_ms"), (by decide : IsText "rules")⟩
    · exact ⟨.zero, htotals⟩
  refine .object (fun e he => hnames e.1 (List.mem_map_of_mem he)) ?_
  simp only [headFields, List.map_cons, List.map_nil, List.cons_append, List.nil_append,
    List.forall_mem_cons]
  exact ⟨.string (by decide), .string (by decide), .int _, .int _, .array hfindings,
    .array hfailures, hmetrics, nofun⟩

variable [Machine]

/-- Whether a report shows some results: their number and that of the rules, their findings and
failures in order, and of each rule that was called the calls in all files. -/
structure Shows (d : Document) (results : List FileResult) (count : Int) : Prop where
  filesScanned : d.field? "files_scanned" = some (.int results.length)
  rulesRun : d.field? "rules_run" = some (.int count)
  findings : ∃ items, d.field? "findings" = some (.array items) ∧
    List.Forall₂ Document.ShowsFinding items (results.flatMap (·.findings))
  failures : ∃ items, d.field? "failures" = some (.array items) ∧
    List.Forall₂ Document.ShowsFailure items (results.flatMap (·.failures))
  calls : ∃ entries, (d.field? "metrics").bind (Document.field? "rules") = some (.object entries) ∧
    (entries.map Prod.fst).Nodup ∧
    (∀ rule, rule ∈ entries.map Prod.fst ↔ ∃ r ∈ results, ∃ t ∈ r.timing, t.rule = rule) ∧
    ∀ e ∈ entries, e.2.field? "call_count" = some (.int (results.map (callsIn e.1)).sum)

/-- Without measured times a report fails if a finding is out of range or the number of rules is
negative, and shows the results otherwise. -/
lemma report_cases (hp : p.Lawful) (htimeless : ∀ r ∈ results, IsTimeless r)
    (htexts : ∀ r ∈ results, r.IsTextual)
    (harguments : ∀ f ∈ results.flatMap (·.findings), f.HasArgumentTexts) :
    (0 ≤ count ∧ (∀ f ∈ results.flatMap (·.findings), f.IsInRange) ∧
      ∃ d : Document, report p results count = .ok d ∧ d.IsPlain ∧ Shows d results count) ∨
    ((count < 0 ∨ ∃ f ∈ results.flatMap (·.findings), ¬f.IsInRange) ∧
      report p results count = .error .outOfRange) := by
  obtain ⟨totals, htotals, htallies, hzero⟩ := exists_totalsOf?_eq htimeless
  obtain ⟨elapsed, helapsed, htime⟩ := exists_elapsedOf?_eq htimeless
  obtain ⟨hnames, names, hnameFields⟩ := fields_nameFields hp htexts htallies
  obtain ⟨failures, hfailures, hplainFailures, hshowsFailures⟩ :
      ∃ ds, recordsOf (failureDocument p) (failuresOf results) = .ok ds ∧
        (∀ d ∈ ds, d.IsPlain) ∧ List.Forall₂ Document.ShowsFailure ds (failuresOf results) := by
    refine exists_recordsOf fun f hf => exists_failureDocument hp ?_
    obtain ⟨r, hr, hf⟩ := List.mem_flatMap.1 hf
    exact (htexts r hr).failures f hf
  have htimes : p.fields [⟨"total_ms", .time, .float 0.0⟩] = .ok [("total_ms", .float 0.0)] :=
    fields_eq_ok (List.forall_mem_singleton.2 hp.time)
  have hreport : report p results count =
      (recordsOf (findingDocument p) (findingsOf results)).bind fun findings =>
        if 0 ≤ count then .ok (documentOf results count findings failures totals)
        else .error .outOfRange := by
    rw [report, htotals]
    simp only [hfailures, helapsed, htime, htimes, hnameFields, fields_headFields hp, bind,
      Except.bind]
    cases recordsOf (findingDocument p) (findingsOf results) with
    | error fault => rfl
    | ok findings =>
      by_cases hcount : 0 ≤ count
      · simp only [if_pos hcount]
        rfl
      · simp only [if_neg hcount]
  have hall : ∀ f ∈ findingsOf results, f.IsTextual ∧ f.HasArgumentTexts := by
    intro f hf
    obtain ⟨r, hr, hmem⟩ := List.mem_flatMap.1 hf
    exact ⟨(htexts r hr).findings f hmem, harguments f hf⟩
  rw [hreport]
  rcases recordsOf_findings_cases hp hall with ⟨hrange, findings, hfindings, hplain, hshows⟩ |
    ⟨hrange, hfindings⟩ <;> rw [hfindings]
  · by_cases hcount : 0 ≤ count
    · refine .inl ⟨hcount, hrange, documentOf results count findings failures totals,
        if_pos hcount, ?_, ?_⟩
      · exact isPlain_documentOf hplain hplainFailures (isPlain_totalDocuments hnames hzero)
      · exact ⟨rfl, rfl, ⟨_, rfl, hshows⟩, ⟨_, rfl, hshowsFailures⟩,
          ⟨_, rfl, calls_totalDocument htallies⟩⟩
    · exact .inr ⟨.inl (Int.not_le.1 hcount), if_neg hcount⟩
  · exact .inr ⟨.inr hrange, rfl⟩

/-- The lines of the text output can be read off a report. -/
lemma text_eq_of_shows {d : Document} (h : Shows d results count) :
    ∃ items lines, d.field? "findings" = some (.array items) ∧
      items.mapM Document.line? = some lines ∧
      text results = (lines.mapM id).map (String.intercalate "\n") := by
  have hlines : ∀ fs : List Finding, linesOf fs = (fs.map Finding.render).mapM id := by
    intro fs
    induction fs with
    | nil => rfl
    | cons f rest ih => rw [linesOf, ih, List.map_cons, List.mapM_cons]; rfl
  obtain ⟨items, hitems, hshows⟩ := h.findings
  refine ⟨items, _, hitems, Document.mapM_line?_eq hshows, ?_⟩
  rw [text, hlines]
  rfl

end

end Output

/-! ### The output of an analysis -/

namespace Analysis

open Output
open Document (IsText)

section

variable {h : Hierarchy} {links : Links} {trees : List Tree} {results : List FileResult}
  {rules : List Rule} {config : Config}

/-- A finding is out of range if its severity is unknown, its span negative, or its line or column
below one. -/
lemma not_isInRange_iff (f : Finding) :
    ¬f.IsInRange ↔ f.severity ∉ severities ∨ f.span.start < 0 ∨ f.span.stop < 0 ∨
      f.location.line < 1 ∨ f.location.column < 1 := by
  have hiff : f.IsInRange ↔ f.severity ∈ severities ∧ 0 ≤ f.span.start ∧ 0 ≤ f.span.stop ∧
      1 ≤ f.location.line ∧ 1 ≤ f.location.column :=
    ⟨fun h => ⟨h.severity, h.start, h.stop, h.line, h.column⟩,
      fun ⟨hseverity, hstart, hstop, hline, hcolumn⟩ => ⟨hseverity, hstart, hstop, hline, hcolumn⟩⟩
  simp only [hiff, not_and_or, Int.not_le]

variable [Machine]

/-- No time is measured in an analysis. -/
lemma isTimeless_of_mem_results
    (hresults : (analyzeTrees rules config h links trees).result = .ok results) :
    ∀ r ∈ results, IsTimeless r := by
  intro r hr
  obtain ⟨tree, -, t, -, -, -, rfl⟩ := exists_traversal_of_mem_results hresults hr
  refine ⟨fun timing ht => ?_, rfl⟩
  replace ht : timing ∈ if config.collectTiming.isTruthy then
    t.calls.map (fun c => (⟨c.1, .float 0.0, c.2⟩ : RuleTiming)) else [] := ht
  split at ht
  · obtain ⟨c, -, rfl⟩ := List.mem_map.1 ht
    rfl
  · cases ht

/-- **Both formats of the output agree.**  By a lawful protocol the machine-readable output of the
results of an analysis, whose texts are made of characters, and whose arguments have such texts,
fails exactly if the number of rules is negative or a finding is out of range: its severity is
unknown, its span is negative, or its line or column is below one.  Otherwise it is the text of one
document only, a report that shows all findings and failures in order, and of each rule the calls in
all files; the lines of the text output are those that can be read off the findings in the report.

With a configuration that is accepted, rules that report nodes of the files under kinds with
known severities, and files without negative spans that are located by their text, or have a single
line, the machine-readable output never fails. -/
theorem render_analyzeTrees (p : Protocol) (hp : p.Lawful) (rules : List Rule) (config : Config)
    (h : Hierarchy) (links : Links) (trees : List Tree) (results : List FileResult)
    (hresults : (analyzeTrees rules config h links trees).result = .ok results)
    (htexts : ∀ r ∈ results, r.IsTextual)
    (harguments : ∀ f ∈ results.flatMap (·.findings), f.HasArgumentTexts) (count : Int) :
    ((∃ fault, render p results "json" count = .error fault) ↔
      count < 0 ∨ ∃ f ∈ results.flatMap (·.findings), f.severity ∉ ["info", "warn", "error"] ∨
        f.span.start < 0 ∨ f.span.stop < 0 ∨ f.location.line < 1 ∨ f.location.column < 1) ∧
    (∀ fault, render p results "json" count = .error fault →
      fault.faultClass = .other "ValidationError") ∧
    (∀ output, render p results "json" count = .ok output → ∃ d : Document,
      d.IsPlain ∧ p.write d = output ∧ (∀ d', d'.IsPlain → p.write d' = output → d' = d) ∧
      Shows d results count ∧
      ∃ items lines, d.field? "findings" = some (.array items) ∧
        items.mapM Document.line? = some lines ∧
        render p results "text" count =
          Fault.told ((lines.mapM id).map (String.intercalate "\n"))) ∧
    ((∃ options, Config.ofArguments options = .ok config) →
      (∀ r ∈ rules, ∀ tree ∈ trees, r.ReportsOnlyOn (fun report =>
        report.code.severity ∈ ["info", "warn", "error"] ∧
          ∃ file ∈ trees, ∃ n ∈ file.root.preorder, report.span = n.span)
        (contextFor config tree) links) →
      (∀ tree ∈ trees, tree.lineStarts = Tree.lineStartsOf tree.text none ∧
        ∀ n ∈ tree.root.preorder, 0 ≤ n.span.start ∧ 0 ≤ n.span.stop) →
      0 ≤ count → ∃ output, render p results "json" count = .ok output) := by
  simp only [← show severities = ["info", "warn", "error"] from rfl, ← not_isInRange_iff]
  have hrender : render p results "json" count = (report p results count).map p.write := rfl
  rcases report_cases hp (isTimeless_of_mem_results hresults) htexts harguments with
    ⟨hcount, hrange, d, hreport, hplain, hshows⟩ | ⟨hout, hreport⟩ <;> rw [hrender, hreport]
  · obtain ⟨items, lines, hitems, hlines, htext⟩ := text_eq_of_shows hshows
    refine ⟨iff_of_false (fun ⟨_, h⟩ => nomatch h) ?_, nofun, ?_, fun _ _ _ _ => ⟨_, rfl⟩⟩
    · rintro (hnegative | ⟨f, hf, hout⟩)
      · exact absurd hcount (Int.not_le.2 hnegative)
      · exact hout (hrange f hf)
    · rintro output ⟨⟩
      exact ⟨d, hplain, rfl, fun d' hd' hsame => hp.write_injective d' d hd' hplain hsame, hshows,
        items, lines, hitems, hlines, congrArg Fault.told htext⟩
  · refine ⟨iff_of_true ⟨_, rfl⟩ hout, ?_, nofun, ?_⟩
    · rintro fault ⟨⟩
      rfl
    · rintro ⟨options, hconfig⟩ hreports htrees hcount
      obtain ⟨f, hf, hout⟩ := hout.resolve_left (Int.not_lt.2 hcount)
      obtain ⟨r, hr, hf⟩ := List.mem_flatMap.1 hf
      refine (hout ?_).elim
      have hstarts : ∀ tree ∈ trees, Location.StartsAtZero tree.lineStarts := by
        intro tree htree
        rw [(htrees tree htree).1]
        exact Tree.startsAtZero_lineStartsOf tree.text
      -- what is reported is the span of a node of one of the files
      refine forall_isInRange hresults (Config.severities_of_ofArguments hconfig) hstarts ?_
        r hr f hf
      intro rule hrule tree htree
      refine (hreports rule hrule tree htree).mono ?_
      rintro report ⟨hseverity, file, hfile, n, hn, hspan⟩
      obtain ⟨hstart, hstop⟩ := (htrees file hfile).2 n hn
      exact ⟨hseverity, hspan ▸ hstart, hspan ▸ hstop⟩

/-- Without timing no rule is timed. -/
lemma timing_eq_nil (hresults : (analyzeTrees rules config h links trees).result = .ok results)
    (hoff : config.collectTiming.isTruthy = false) : ∀ r ∈ results, r.timing = [] := by
  intro r hr
  obtain ⟨tree, -, t, -, -, -, rfl⟩ := exists_traversal_of_mem_results hresults hr
  simp only [fileResult, hoff, Bool.false_eq_true, if_false]

/-- Reports the node with some arguments, though the kind expects none. -/
def arguingHandler (arguments : List Value) : Handler := fun _ site =>
  .reportOnce ⟨"arguing", site.node.span, plainKind "arguing", arguments⟩

/-- A rule that reports every block so. -/
def arguingRule (arguments : List Value) : Rule := blockRule "arguing" (arguingHandler arguments)

/-- What the rule finds in a file with one block. -/
def arguingFinding (arguments : List Value) : Finding where
  rule := "arguing"
  code := plainKind "arguing"
  file := "block.dart"
  span := ⟨0, 2⟩
  arguments := arguments
  severity := "warn"
  message := ""
  location := ⟨1, 1⟩

omit [Machine] in
lemma location_blockFile : Traversal.blockFile.location 0 = .ok ⟨1, 1⟩ := by
  have hplace : Location.ofOffset? Traversal.blockFile.lineStarts 0 = some ⟨1, 1⟩ := by
    decide +kernel
  simp only [Tree.location, hplace]

/-- A lenient reporter takes arguments that the kind does not expect. -/
lemma report_arguing (arguments : List Value) :
    (((reporterFor Config.default Traversal.blockFile).declare "arguing" ["arguing"]).report
      ⟨"arguing", ⟨0, 2⟩, plainKind "arguing", arguments⟩).1 =
        .ok (some (arguingFinding arguments)) := by
  have harity := (isWellFormed_plainKind "arguing").2.1
  have hzero : Value.decimal 0 = .ok "0" :=
    Value.decimal_of_lt (Nat.lt_of_lt_of_le (by decide) Value.ten_le_leastLong)
  have hformat : (plainKind "arguing").format arguments = .ok "" := by
    rw [DiagnosticKind.format, pieces_plainKind]
    rfl
  have hrefusal : ((reporterFor Config.default Traversal.blockFile).declare "arguing"
      ["arguing"]).refusal? ⟨"arguing", ⟨0, 2⟩, plainKind "arguing", arguments⟩ = none := by
    have hlenient : ((reporterFor Config.default Traversal.blockFile).declare "arguing"
      ["arguing"]).strict = false := rfl
    simp [Reporter.refusal?, harity, Reporter.countFault?, hzero, Reporter.vocabularyFault?,
      hlenient]
  have hfinding : ((reporterFor Config.default Traversal.blockFile).declare "arguing"
      ["arguing"]).finding ⟨"arguing", ⟨0, 2⟩, plainKind "arguing", arguments⟩ =
        .ok (arguingFinding arguments) :=
    (Reporter.finding_eq_ok_iff _ _).2 ⟨⟨1, 1⟩, "", location_blockFile, hformat, rfl⟩
  rw [Reporter.report, hrefusal]
  simp only [Reporter.record, hfinding]
  rfl

/-- The analysis finds this in a file with one block, and its texts are made of characters. -/
lemma exists_result_arguingRule (arguments : List Value) :
    ∃ r, (analyzeTrees [arguingRule arguments] Config.default Hierarchy.standard ∅
        [Traversal.blockFile]).result = .ok [r] ∧
      r.findings = [arguingFinding arguments] ∧ r.IsTextual := by
  obtain ⟨-, registry, hbuilt, -⟩ := building_blockRule "arguing" (arguingHandler arguments)
    Config.default ∅ Traversal.blockFile ⟨Hierarchy.standard, []⟩
  have hanswer : ((built [arguingRule arguments] Config.default ∅ Traversal.blockFile
      ⟨Hierarchy.standard, []⟩).reporter.report
        ⟨"arguing", ⟨0, 2⟩, plainKind "arguing", arguments⟩).1 =
          .ok (some (arguingFinding arguments)) := by
    rw [arguingRule, hbuilt]
    exact report_arguing arguments
  obtain ⟨hevents, hrun⟩ := Script.reportOnce_of_ok "arguing" ∅ hanswer
  obtain ⟨r, hr, hfailures, hfindings⟩ :=
    exists_result_of_run "arguing" (arguingHandler arguments) rfl hrun
  replace hfindings := hfindings.trans (congrArg (List.filterMap Event.finding?) hevents)
  have hresults := result_analyzeTrees_singleton hr
  refine ⟨r, hresults, hfindings, ?_, ?_, ?_⟩
  · rw [hfindings]
    exact List.forall_mem_singleton.2
      ⟨(by decide : IsText "arguing"), (by decide : IsText "arguing"), (by decide : IsText ""),
        nofun, (by decide : IsText "block.dart")⟩
  · rw [hfailures]
    exact nofun
  · rw [timing_eq_nil hresults rfl r (by simp)]
    exact nofun

end

attribute [local instance] Machine.small

theorem render_analyzeTrees_arguing :
    Protocol.standard.Lawful ∧ ∃ results,
      (analyzeTrees [arguingRule [.string "one"]] Config.default Hierarchy.standard ∅
        [Traversal.blockFile]).result = .ok results ∧
      (∀ r ∈ results, r.IsTextual) ∧
      (∀ f ∈ results.flatMap (·.findings), f.HasArgumentTexts) ∧
      Config.ofArguments [] = .ok Config.default ∧
      Traversal.blockFile.lineStarts = Tree.lineStartsOf Traversal.blockFile.text none ∧
      ∃ output, render Protocol.standard results "json" 1 = .ok output := by
  obtain ⟨r, hresults, hfindings, htexts⟩ := exists_result_arguingRule [.string "one"]
  have htextual : ∀ r' ∈ [r], r'.IsTextual := List.forall_mem_singleton.2 htexts
  have harguments : ∀ f ∈ [r].flatMap (·.findings), f.HasArgumentTexts := by
    rw [List.flatMap_singleton, hfindings, List.forall_mem_singleton]
    exact ⟨["one"], rfl, List.forall_mem_singleton.2 (by decide)⟩
  obtain ⟨-, -, -, hnever⟩ := render_analyzeTrees Protocol.standard Protocol.lawful_standard
    [arguingRule [.string "one"]] Config.default Hierarchy.standard ∅ [Traversal.blockFile] [r]
    hresults htextual harguments 1
  refine ⟨Protocol.lawful_standard, [r], hresults, htextual, harguments, rfl, rfl,
    hnever ⟨[], rfl⟩ ?_ ?_ (by decide)⟩
  · intro rule hrule tree htree
    rw [List.mem_singleton.1 hrule]
    intro card setup hcard hsetup
    cases hcard
    cases hsetup
    refine ⟨Script.reportsOnly_addAll _ _, Script.addsOnly_addAll (List.forall_mem_singleton.2 ?_)⟩
    rintro handler ⟨⟩ n hn
    have hwarn : (plainKind "arguing").severity ∈ ["info", "warn", "error"] := by decide
    exact ⟨⟨hwarn, tree, htree, n, hn, rfl⟩, fun answer => by cases answer <;> trivial⟩
  · rw [List.forall_mem_singleton, Traversal.preorder_blockFile, List.forall_mem_singleton]
    exact ⟨rfl, by decide⟩

/-- Not every report of findings in range is made: the number of rules may be negative, and an
argument that stands in no message may have no text. -/
theorem not_forall_json_iff :
    (¬∀ count, ∃ output, render Protocol.standard [] "json" count = .ok output) ∧
    ¬∀ rules config h links trees results,
      (analyzeTrees rules config h links trees).result = .ok results →
      (∀ r ∈ results, r.IsTextual) → (∀ f ∈ results.flatMap (·.findings), f.IsInRange) →
      ∃ output, render Protocol.standard results "json" 1 = .ok output := by
  constructor
  · intro h
    obtain ⟨output, houtput⟩ := h (-1)
    have hrefused : render Protocol.standard [] "json" (-1) = .error .outOfRange := rfl
    cases hrefused.symm.trans houtput
  · intro h
    have htext : (Value.int Value.leastLong).text = .error .longInteger :=
      (Value.quoted_int _).trans Value.decimal_leastLong
    -- the number is hidden, because it is not to be computed
    generalize Value.int Value.leastLong = v at htext
    obtain ⟨r, hresults, hfindings, htexts⟩ := exists_result_arguingRule [v]
    have hrange : (arguingFinding [v]).IsInRange := by
      constructor <;> simp [arguingFinding, severities]
    obtain ⟨output, houtput⟩ := h _ _ _ _ _ [r] hresults (List.forall_mem_singleton.2 htexts)
      (by rw [List.flatMap_singleton, hfindings]; exact List.forall_mem_singleton.2 hrange)
    obtain ⟨totals, htotals, -, -⟩ := exists_totalsOf?_eq (isTimeless_of_mem_results hresults)
    have hfinding : findingDocument Protocol.standard (arguingFinding [v]) =
        .error (.text .longInteger) := by
      simp only [findingDocument, arguingFinding, Value.texts, htext]
      rfl
    have hrecords : recordsOf (findingDocument Protocol.standard) (findingsOf [r]) =
        .error (.text .longInteger) := by
      rw [findingsOf, List.flatMap_singleton, hfindings, recordsOf, hfinding]
      rfl
    have hrefused : render Protocol.standard [r] "json" 1 = .error (.text .longInteger) := by
      rw [render, if_pos rfl, report, htotals]
      simp only [hrecords]
      rfl
    cases hrefused.symm.trans houtput

end Analysis

end TreeLint
