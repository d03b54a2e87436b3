/-
What suppression comments change.

Comments are looked at when the traversal of a file is over, so an analysis that
follows them fails with the same fault as one that does not, or has the same result
but for the findings that comments silence.  Which findings these are is said of the
text of the file alone, its lines and the comments on them (`Suppression.Silences`):
the analysis decides it by the line of the location, and that is the line of the text
that holds the start of the finding, for a reporter locates its findings by the line
starts (`Reporter.IsLocated`) and both number the lines alike.
-/
import Mathlib.Data.Finset.Card
import TreeLint.Proofs.Run.Comment
import TreeLint.Proofs.Run.Isolation
import TreeLint.Proofs.Syntax.Lines
namespace TreeLint

/-! ### What the comments of a text say -/

namespace Suppression

/-- Whether comments of a text silence the findings of a rule that start at an offset: a comment for
the file does, or one on the line that holds the offset, or one on the line before it. -/
def Silences (text : String) (rule : String) (offset : Int) : Prop :=
  (∃ line ∈ linesOf text, Lists .file line rule) ∨
    ∃ i line, (linesOf text)[i]? = some line ∧ Lists .line line rule ∧
      (lineAt (linesOf text) offset.toNat = i ∨ lineAt (linesOf text) offset.toNat = i + 1)

/-- Whether a line, counted from one, has a comment that covers lines, or the line before it has. -/
def Covers (text : String) (n : Nat) : Prop :=
  ∃ i line list, (linesOf text)[i]? = some line ∧ IsComment .line line list ∧
    (n = i + 1 ∨ n = i + 2)

/-- Whether a comment of a text lists a pattern for the file. -/
def ListsForFile (text : String) (pattern : String) : Prop :=
  ∃ line ∈ linesOf text, ∃ list, IsComment .file line list ∧ IsNamed list pattern

end Suppression

namespace Suppressions

open Suppression

variable (text : String)

lemma commentOn_ofText (k : Nat) :
    (ofText text).commentOn (k + 1) = (linesOf text)[k]?.bind (namesOn .line) := by
  have hline : ¬((k : Int) + 1 < 1) := by omega
  have hplace : ((k : Int) + 1 - 1).toNat = k := by omega
  rw [commentOn, if_neg hline, hplace, ofText, List.getElem?_map]
  cases (linesOf text)[k]? <;> rfl

/-- No comment stands before the first line. -/
lemma commentOn_zero (s : Suppressions) : s.commentOn 0 = none := if_pos (by decide)

/-- The comments that count on a line are those on it and on the line before. -/
lemma commentOn_or_iff {P : Option (List String) → Prop} (hnone : ¬P none) (k : Nat) :
    P ((ofText text).commentOn (k + 1)) ∨ P ((ofText text).commentOn k) ↔
      ∃ i line, (linesOf text)[i]? = some line ∧ P (namesOn .line line) ∧ (k = i ∨ k = i + 1) := by
  have hline : ∀ k : Nat, P ((ofText text).commentOn (k + 1)) ↔
      ∃ line, (linesOf text)[k]? = some line ∧ P (namesOn .line line) := by
    intro k
    rw [commentOn_ofText]
    rcases (linesOf text)[k]? with _ | line
    · simpa using hnone
    · simp
  rw [hline]
  constructor
  · rintro (⟨line, hline, hp⟩ | habove)
    · exact ⟨k, line, hline, hp, .inl rfl⟩
    · cases k with
      | zero =>
        rw [Int.natCast_zero, commentOn_zero] at habove
        exact absurd habove hnone
      | succ k =>
        rw [Int.natCast_succ, hline] at habove
        obtain ⟨line, hline, hp⟩ := habove
        exact ⟨k, line, hline, hp, .inr rfl⟩
  · rintro ⟨i, line, hi, hp, rfl | rfl⟩
    · exact .inl ⟨line, hi, hp⟩
    · right
      rw [Int.natCast_succ, hline]
      exact ⟨line, hi, hp⟩

lemma matchesAny_fileNames_iff (rule : String) :
    Glob.matchesAny (ofText text).fileNames rule = true ↔
      ∃ line ∈ linesOf text, Lists .file line rule := by
  simp only [ofText, Glob.matchesAny, List.any_flatMap, List.any_eq_true]
  refine exists_congr fun line => and_congr_right fun _ => ?_
  rw [← matchesAny_namesOn_iff, Glob.matchesAny, List.any_eq_true]

/-- What is suppressed on the line of an offset is what comments silence there. -/
lemma suppresses_iff_silences (rule : String) (offset : Int) :
    (ofText text).suppresses rule (lineAt (linesOf text) offset.toNat + 1) = true ↔
      Silences text rule offset := by
  rw [suppresses, Bool.or_eq_true, matchesAny_fileNames_iff, Silences]
  refine or_congr_right ?_
  rw [namesFor, Glob.matchesAny, List.any_append, Bool.or_eq_true, Int.add_sub_cancel]
  have hlines := commentOn_or_iff text
    (P := fun names => Glob.matchesAny (names.getD []) rule = true) (by simp [Glob.matchesAny])
    (lineAt (linesOf text) offset.toNat)
  simp only [matchesAny_namesOn_iff] at hlines
  exact hlines

instance (rule : String) (offset : Int) : Decidable (Silences text rule offset) :=
  decidable_of_iff _ (suppresses_iff_silences text rule offset)

/-! ### The counts -/

/-- A line is covered by the comments on it and on the line before. -/
lemma isCovered_iff (k : Nat) : (ofText text).isCovered (k + 1) = true ↔
    ∃ i line, (linesOf text)[i]? = some line ∧ (∃ list, IsComment .line line list) ∧
      (k = i ∨ k = i + 1) := by
  have hlines := commentOn_or_iff text (P := fun names => names.isSome = true) (by simp) k
  simp only [namesOn, Option.isSome_map, Option.isSome_iff_exists, directiveOn_eq_some_iff]
    at hlines
  rw [isCovered, Bool.or_eq_true, Int.add_sub_cancel, Option.isSome_iff_exists,
    Option.isSome_iff_exists]
  exact hlines

lemma mem_coveredLines_iff (n : Nat) : n ∈ (ofText text).coveredLines ↔ Covers text n := by
  have hlength : (ofText text).comments.length = (linesOf text).length := List.length_map _
  rw [coveredLines, List.mem_filter, List.mem_map, hlength]
  constructor
  · rintro ⟨⟨k, -, rfl⟩, hcovered⟩
    rw [Int.natCast_succ, isCovered_iff] at hcovered
    obtain ⟨i, line, hline, ⟨list, hcomment⟩, hk⟩ := hcovered
    exact ⟨i, line, list, hline, hcomment, by omega⟩
  · rintro ⟨i, line, list, hline, hcomment, hn⟩
    have hi := (List.getElem?_eq_some_iff.1 hline).1
    obtain ⟨k, rfl⟩ : ∃ k, n = k + 1 := ⟨n - 1, by omega⟩
    refine ⟨⟨k, List.mem_range.2 (by omega), rfl⟩, ?_⟩
    rw [Int.natCast_succ, isCovered_iff]
    exact ⟨i, line, hline, ⟨list, hcomment⟩, by omega⟩

lemma nodup_coveredLines (s : Suppressions) : s.coveredLines.Nodup :=
  (List.nodup_range.map (fun _ _ h => Nat.succ.inj h)).filter _

lemma mem_fileNames_iff (pattern : String) :
    pattern ∈ (ofText text).fileNames ↔ ListsForFile text pattern := by
  simp only [ofText, List.mem_flatMap, ListsForFile]
  refine exists_congr fun line => and_congr_right fun _ => ?_
  simp only [namesOn, ← directiveOn_eq_some_iff, ← mem_namesOf_iff]
  rcases directiveOn .file line with _ | list <;> simp

/-- What is left of a list when it keeps each member once has no member twice. -/
lemma nodup_eraseDups (names : List String) : names.eraseDups.Nodup := by
  induction hn : names.length using Nat.strong_induction_on generalizing names with
  | _ n ih =>
    cases names with
    | nil => exact List.nodup_nil
    | cons name rest =>
      rw [List.eraseDups_cons, List.nodup_cons]
      refine ⟨fun hmem => ?_, ih _ ?_ _ rfl⟩
      · simp [List.mem_eraseDups] at hmem
      · rw [← hn, List.length_cons]
        exact Nat.lt_succ_of_le (List.length_filter_le _ rest)

/-- The counts are the numbers of covered lines and of patterns for the file. -/
lemma exists_counts_eq : ∃ (covered : Finset Nat) (patterns : Finset String),
    (∀ n, n ∈ covered ↔ Covers text n) ∧ (∀ p, p ∈ patterns ↔ ListsForFile text p) ∧
      (ofText text).counts = (covered.card, patterns.card) := by
  refine ⟨(ofText text).coveredLines.toFinset, (ofText text).fileNames.eraseDups.toFinset,
    fun n => ?_, fun p => ?_, ?_⟩
  · rw [List.mem_toFinset, mem_coveredLines_iff]
  · rw [List.mem_toFinset, List.mem_eraseDups, mem_fileNames_iff]
  · rw [List.toFinset_card_of_nodup (nodup_coveredLines _),
      List.toFinset_card_of_nodup (nodup_eraseDups _), counts]

end Suppressions

/-! ### The findings are located -/

/-- Whether the findings that a reporter holds are located in a file. -/
structure Reporter.IsLocated (tree : Tree) (r : Reporter) : Prop where
  tree_eq : r.tree = tree
  location : ∀ f ∈ r.findings, tree.location f.span.start = .ok f.location

section

variable [Machine]

/-- A report keeps the findings located. -/
lemma Reporter.IsLocated.report {tree : Tree} {r : Reporter} (h : r.IsLocated tree)
    (report : Report) : (r.report report).2.IsLocated tree := by
  rcases r.report_cases report with
    ⟨f, heq⟩ | ⟨-, heq⟩ | ⟨-, -, heq⟩ | ⟨-, -, finding, hfinding, heq⟩ <;> rw [heq]
  · exact h
  · exact ⟨h.tree_eq, h.location⟩
  · exact ⟨h.tree_eq, h.location⟩
  · obtain ⟨location, message, hlocation, -, rfl⟩ := (r.finding_eq_ok_iff report).1 hfinding
    refine ⟨h.tree_eq, fun f hf => ?_⟩
    rcases List.mem_append.1 hf with hf | hf
    · exact h.location f hf
    · rw [List.mem_singleton.1 hf, ← h.tree_eq]
      exact hlocation

/-- Scripts keep the findings located. -/
lemma Session.isLocated_invariant (tree : Tree) :
    Session.Invariant (fun _ => True) (fun _ => True) (fun s => s.reporter.IsLocated tree) where
  report h _ := h.report _
  add h _ _ := h
  question h := h

end

/-- A configuration with which comments are followed, or not. -/
def Config.following (config : Config) (on : Bool) : Config :=
  { config with honorSuppressions := .bool on }

namespace Analysis

variable {rules : List Rule} {config : Config} {tree : Tree} {text : String}

/-! ### The result of a file with and without its comments -/

/-- Comments that are followed take out the findings that they silence. -/
lemma filterFindings_on (htext : tree.text = some text) (hne : text ≠ "")
    (hstarts : tree.lineStarts = Location.startsOf text) (config : Config) {r : Reporter}
    (hr : r.IsLocated tree) :
    let filtered := filterFindings (config.following true) tree r.findings
    filtered.findings =
        r.findings.filter (fun f => ¬Suppression.Silences text f.rule f.span.start) ∧
      filtered.suppressed =
        (r.findings.filter (fun f => Suppression.Silences text f.rule f.span.start)).length ∧
      filtered.counts = some (Suppressions.ofText text).counts := by
  have hcommented : commentedText? (config.following true) tree = some text := by
    simp [commentedText?, Config.following, Value.isTruthy, htext, Option.filter, hne]
  -- a located finding has the line of the text that holds its start
  have hdecides : ∀ f ∈ r.findings,
      (Suppressions.ofText text).suppresses f.rule f.location.line =
        decide (Suppression.Silences text f.rule f.span.start) := by
    intro f hf
    rw [Tree.line_of_location hstarts (hr.location f hf), Bool.eq_iff_iff, decide_eq_true_eq]
    exact Suppressions.suppresses_iff_silences text f.rule f.span.start
  have hkept : kept (Suppressions.ofText text) r.findings =
      r.findings.filter (fun f => ¬Suppression.Silences text f.rule f.span.start) := by
    refine List.filter_congr fun f hf => ?_
    rw [hdecides f hf, decide_not]
  intro filtered
  have hfiltered : filtered = filterFindings (config.following true) tree r.findings := rfl
  rw [filterFindings, hcommented] at hfiltered
  refine ⟨?_, ?_, by rw [hfiltered]⟩
  · rw [hfiltered]
    exact hkept
  -- what is suppressed is counted by what is missing from the findings that are kept
  · have hsplit := (List.filter_append_perm
      (fun f => decide (Suppression.Silences text f.rule f.span.start)) r.findings).length_eq
    simp only [List.length_append, ← decide_not] at hsplit
    rw [hfiltered]
    simp only [hkept]
    omega

section

variable [Machine]

lemma isLocated_traversed {links : Links} {m : Supertypes}
    (hbuild : (building rules config links tree m).1 = .ok ()) :
    (traversed rules config links tree m).2.session.reporter.IsLocated tree :=
  preserves_traversed_of_opening (Session.isLocated_invariant tree)
    (fun _ _ _ hs => ⟨hs.tree_eq, hs.location⟩) (fun _ hs => hs) ⟨rfl, nofun⟩ hbuild

/-- **Comments only take out what they silence.**  Take a file with a text that is not empty,
located by the line starts of its text.  If its analysis fails when comments are not followed, it
fails with the same fault when they are.  Else it has a result both times, the same but for the
findings that comments silence: they are taken out, the others stay in their order, and what is
taken out is counted, and so are the lines that comments cover and the patterns for the file. -/
theorem analyzeTree_following (rules : List Rule) (config : Config) (h : Hierarchy)
    (links : Links) (tree : Tree) (text : String) (htext : tree.text = some text)
    (hne : text ≠ "") (hstarts : tree.lineStarts = Location.startsOf text) :
    (∃ fault,
      (analyzeTree rules (config.following false) h links tree).result = .error fault ∧
      (analyzeTree rules (config.following true) h links tree).result = .error fault) ∨
    ∃ (off : FileResult) (covered : Finset Nat) (patterns : Finset String),
      (analyzeTree rules (config.following false) h links tree).result = .ok off ∧
      off.suppressed = 0 ∧ off.suppressionCounts = none ∧
      (∀ n, n ∈ covered ↔ Suppression.Covers text n) ∧
      (∀ pattern, pattern ∈ patterns ↔ Suppression.ListsForFile text pattern) ∧
      (analyzeTree rules (config.following true) h links tree).result = .ok { off with
        findings :=
          off.findings.filter (fun f => ¬Suppression.Silences text f.rule f.span.start)
        suppressed :=
          (off.findings.filter (fun f => Suppression.Silences text f.rule f.span.start)).length
        suppressionCounts := some (covered.card, patterns.card) } := by
  rcases hvalid : RuleSet.validate rules with fault | _
  · exact .inl ⟨fault, result_analyzeTree_of_refused hvalid, result_analyzeTree_of_refused hvalid⟩
  rcases hbuild : (building rules config links tree ⟨h, []⟩).1 with fault | _
  · have hunbuilt : ∀ on, (building rules (config.following on) links tree ⟨h, []⟩).1 =
        .error fault := fun _ => hbuild
    exact .inl ⟨fault, result_analyzeTree_of_unbuilt hvalid (hunbuilt false),
      result_analyzeTree_of_unbuilt hvalid (hunbuilt true)⟩
  -- the rules and the calls do not know whether comments are followed
  have hbuilds : ∀ on, (building rules (config.following on) links tree ⟨h, []⟩).1 = .ok () :=
    fun _ => hbuild
  have hruns : ∀ on, traversed rules (config.following on) links tree ⟨h, []⟩ =
      traversed rules config links tree ⟨h, []⟩ := fun _ => rfl
  have hlocated := isLocated_traversed hbuild
  rcases hrun : traversed rules config links tree ⟨h, []⟩ with ⟨_ | fault, t⟩ <;>
    rw [hrun] at hruns hlocated
  · have hoff := result_analyzeTree_of_returned hvalid (hbuilds false) (hruns false)
    have hon := result_analyzeTree_of_returned hvalid (hbuilds true) (hruns true)
    obtain ⟨hfindings, hsuppressed, hcounts⟩ :=
      filterFindings_on htext hne hstarts config hlocated
    obtain ⟨covered, patterns, hcovered, hpatterns, hcard⟩ := Suppressions.exists_counts_eq text
    refine .inr ⟨_, covered, patterns, hoff, rfl, rfl, hcovered, hpatterns, ?_⟩
    rw [hon, ← hcard]
    simp only [fileResult, hfindings, hsuppressed, hcounts]
    rfl
  · exact .inl ⟨fault, result_analyzeTree_of_ended hvalid (hbuilds false) (hruns false),
      result_analyzeTree_of_ended hvalid (hbuilds true) (hruns true)⟩

end

/-- A file with one block and a comment behind it. -/
def commentedFile : Tree :=
  { Traversal.blockFile with
    text := some "{} // ignore: find*"
    lineStarts := Location.startsOf "{} // ignore: find*" }

attribute [local instance] Machine.small

theorem analyzeTree_following_commented :
    commentedFile.text = some "{} // ignore: find*" ∧ "{} // ignore: find*" ≠ "" ∧
      commentedFile.lineStarts = Location.startsOf "{} // ignore: find*" ∧
      Suppression.Silences "{} // ignore: find*" "finding" 0 ∧
      ∃ off on : FileResult,
        (analyzeTree [findingRule] (Config.default.following false) Hierarchy.standard ∅
          commentedFile).result = .ok off ∧
        (analyzeTree [findingRule] (Config.default.following true) Hierarchy.standard ∅
          commentedFile).result = .ok on ∧
        on.findings = off.findings.filter (fun f =>
          ¬Suppression.Silences "{} // ignore: find*" f.rule f.span.start) := by
  refine ⟨rfl, by decide, rfl, by decide +kernel, ?_⟩
  rcases analyzeTree_following [findingRule] Config.default Hierarchy.standard ∅ commentedFile
    "{} // ignore: find*" rfl (by decide) rfl with
    ⟨fault, hfault, -⟩ | ⟨off, covered, patterns, hoff, -, -, -, -, hon⟩
  · have hresult : ∃ r, (analyzeTree [findingRule] (Config.default.following false)
        Hierarchy.standard ∅ commentedFile).result = .ok r :=
      exists_result_findingRule rfl _ _ rfl (by decide)
    obtain ⟨r, hr⟩ := hresult
    rw [hr] at hfault
    cases hfault
  · exact ⟨off, _, hoff, hon, rfl⟩

end Analysis

end TreeLint
