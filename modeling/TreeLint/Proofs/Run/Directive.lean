/-
Suppression comments have an effect or are reported.

Two slashes, blanks and the word of a comment mark a line (`Suppression.Marks`).  A mark
with anything behind it is a comment, so a search that finds no comment tells that all
marks of the line stand at its end (`directiveOn_eq_none_iff`).  A comment registers the
names of its list, and these are in effect where the comment says (`mem_namesFor_iff`).
The check reads the same lists: it reports one that names nothing, and every name with a
character that names do not have (`mem_listProblems_iff`).

So a comment is reported unless it registers something and all of it is fit to be a name.
A mark at the end of a line registers nothing and is not reported either.
-/
import TreeLint.Proofs.Run.Silence
namespace TreeLint

namespace Suppression

variable {d : Directive} {line list before tail : List Char} {name : String} {problem : Problem}

/-! ### Marks -/

/-- A mark of a line: two slashes, any blanks and the word of a comment, between two parts of the
line. -/
def Marks (d : Directive) (line before tail : List Char) : Prop :=
  ∃ blanks, line = before ++ ['/', '/'] ++ blanks ++ d.word ++ tail ∧
    ∀ c ∈ blanks, Text.isBlank c = true

/-- A line without a comment has none at any place. -/
lemma not_opens_of_directiveOn {rest : List Char} (h : directiveOn d line = none)
    (hline : line = before ++ rest) : ¬Opens d rest list := by
  induction line generalizing before with
  | nil =>
    obtain ⟨rfl, rfl⟩ := List.nil_eq_append_iff.1 hline
    rintro hopens
    obtain ⟨rest', tail, hrest, -⟩ := opens_iff.1 hopens
    cases hrest
  | cons c line ih =>
    rw [directiveOn] at h
    split at h
    · cases h
    · next hfirst =>
      cases before with
      | nil =>
        rw [List.nil_append] at hline
        exact hline ▸ not_opens_of_directiveAt hfirst list
      | cons b before => exact ih h (List.cons_eq_cons.1 hline).2

/-- Exactly the marks with something behind them are comments. -/
lemma directiveOn_eq_none_iff :
    directiveOn d line = none ↔ ∀ before tail, Marks d line before tail → tail = [] := by
  constructor
  · rintro h before tail ⟨blanks, hline, hblanks⟩
    by_contra htail
    have hrest : line = before ++ (['/', '/'] ++ blanks ++ d.word ++ tail) := by
      simpa using hline
    exact not_opens_of_directiveOn h hrest
      ⟨blanks, [], by simp, hblanks, fun c hc => (nomatch hc), htail⟩
  · intro h
    rcases hfound : directiveOn d line with _ | list
    · rfl
    · obtain ⟨before, rest, rfl, ⟨⟨blanks, more, rfl, hblanks, -, hlist⟩, -⟩, -⟩ :=
        (directiveOn_eq_some_iff d line list).1 hfound
      have htail := h before (more ++ list) ⟨blanks, by simp, hblanks⟩
      exact absurd (List.append_eq_nil_iff.1 htail).2 hlist

lemma exists_directiveOn_iff : (∃ list, directiveOn d line = some list) ↔
    ∃ before tail, Marks d line before tail ∧ tail ≠ [] := by
  rw [← Option.ne_none_iff_exists', ne_eq, directiveOn_eq_none_iff]
  push Not
  rfl

/-! ### Names that are registered -/

/-- Whether the comment of a sort on a line registers a name. -/
def Registers (d : Directive) (line : List Char) (name : String) : Prop :=
  name ∈ (namesOn d line).getD []

lemma registers_iff :
    Registers d line name ↔ ∃ list, directiveOn d line = some list ∧ name ∈ namesOf list := by
  rw [Registers, namesOn]
  rcases directiveOn d line with _ | list <;> simp

/-- Names are only registered behind a mark that has something behind it. -/
lemma Registers.exists_marks (h : Registers d line name) :
    ∃ before tail, Marks d line before tail ∧ tail ≠ [] := by
  obtain ⟨list, hlist, -⟩ := registers_iff.1 h
  exact exists_directiveOn_iff.1 ⟨list, hlist⟩

/-- Whether a name consists of ASCII letters and digits and of the other characters that names and
patterns over them have. -/
def IsFit (name : String) : Prop :=
  ∀ c ∈ name.toList, c.isAlphanum = true ∨ c ∈ ['_', '.', '*', '?', '[', ']', '-']

lemma isFit_iff : IsFit name ↔ name.toList.all isNameChar = true := by
  simp [IsFit, isNameChar]

end Suppression

namespace Suppressions

open Suppression

variable (text : String)

/-- The names that cover a line are those that comments on it and on the line before register. -/
lemma mem_namesFor_iff (k : Nat) (name : String) : name ∈ (ofText text).namesFor (k + 1) ↔
    ∃ i line, (linesOf text)[i]? = some line ∧ Registers .line line name ∧
      (k = i ∨ k = i + 1) := by
  rw [namesFor, List.mem_append, Int.add_sub_cancel]
  exact commentOn_or_iff text (P := fun names => name ∈ names.getD []) (by simp) k

end Suppressions

namespace Suppression

/-! ### Problems that are reported -/

lemma namesOf_eq_nil_iff : namesOf list = [] ↔ (entriesOf list).all List.isEmpty = true := by
  rw [namesOf, List.map_eq_nil_iff, List.filter_eq_nil_iff, List.all_eq_true]
  refine forall₂_congr fun entry _ => ?_
  rw [Bool.not_eq_true', Bool.not_eq_false]

/-- What is wrong with a list: that it names nothing, or that a name of it is not fit. -/
lemma mem_listProblems_iff : problem ∈ listProblems list ↔
    (problem = .noNames ∧ namesOf list = []) ∨
      ∃ name ∈ namesOf list, problem = .badName name ∧ ¬IsFit name := by
  rw [listProblems, List.mem_append]
  refine or_congr ?_ ?_
  · rw [List.mem_ite_nil_right, List.mem_singleton, namesOf_eq_nil_iff, and_comm]
  · simp only [List.mem_map, List.mem_filter, namesOf, Function.comp_apply, Bool.and_eq_true,
      Bool.not_eq_true', isFit_iff, Bool.not_eq_true]
    constructor
    · rintro ⟨entry, ⟨hentry, hne, hbad⟩, rfl⟩
      refine ⟨_, ⟨entry, ⟨hentry, hne⟩, rfl⟩, rfl, ?_⟩
      rwa [String.toList_ofList]
    · rintro ⟨name, ⟨entry, ⟨hentry, hne⟩, rfl⟩, rfl, hbad⟩
      rw [String.toList_ofList] at hbad
      exact ⟨entry, ⟨hentry, hne, hbad⟩, rfl⟩

lemma mem_lineProblems_iff : problem ∈ lineProblems line ↔
    ∃ d list, directiveOn d line = some list ∧ problem ∈ listProblems list := by
  rw [lineProblems, List.mem_flatMap]
  constructor
  · rintro ⟨d, -, hproblem⟩
    rcases hlist : directiveOn d line with _ | list
    · rw [hlist] at hproblem
      cases hproblem
    · rw [hlist] at hproblem
      exact ⟨d, list, hlist, hproblem⟩
  · rintro ⟨d, list, hlist, hproblem⟩
    refine ⟨d, by cases d <;> simp, ?_⟩
    rw [hlist]
    exact hproblem

/-- The problems of some lines, with their numbers from a number on. -/
lemma mem_problemsFrom_iff {lines : List (List Char)} {n m : Nat} :
    (m, problem) ∈ problemsFrom n lines ↔
      ∃ i line, lines[i]? = some line ∧ m = n + i ∧ problem ∈ lineProblems line := by
  induction lines generalizing n with
  | nil => simp [problemsFrom]
  | cons first rest ih =>
    rw [problemsFrom, List.mem_append, List.mem_map, ih]
    constructor
    · rintro (⟨p, hp, heq⟩ | ⟨i, line, hline, rfl, hproblem⟩)
      · cases heq
        exact ⟨0, first, rfl, rfl, hp⟩
      · exact ⟨i + 1, line, hline, by omega, hproblem⟩
    · rintro ⟨i, line, hline, rfl, hproblem⟩
      cases i with
      | zero =>
        cases hline
        exact .inl ⟨problem, hproblem, rfl⟩
      | succ i => exact .inr ⟨i, line, hline, by omega, hproblem⟩

section Reported

variable {text : String} {n : Nat}

/-- The problems with the number of a line are those of the lists on it. -/
lemma mem_problems_iff (hline : (linesOf text)[n]? = some line) :
    (n + 1, problem) ∈ problems text ↔
      ∃ d list, directiveOn d line = some list ∧ problem ∈ listProblems list := by
  rw [problems, mem_problemsFrom_iff]
  constructor
  · rintro ⟨i, line', hline', hi, hproblem⟩
    obtain rfl : n = i := by omega
    rw [hline] at hline'
    cases hline'
    exact mem_lineProblems_iff.1 hproblem
  · intro hproblem
    exact ⟨n, line, hline, Nat.add_comm n 1, mem_lineProblems_iff.2 hproblem⟩

/-- A comment is reported as empty if nothing is registered from it. -/
lemma noNames_mem_problems_iff (hline : (linesOf text)[n]? = some line) :
    (n + 1, .noNames) ∈ problems text ↔
      ∃ d, (∃ before tail, Marks d line before tail ∧ tail ≠ []) ∧
        ∀ name, ¬Registers d line name := by
  rw [mem_problems_iff hline]
  refine exists_congr fun d => ?_
  simp only [mem_listProblems_iff, registers_iff, ← exists_directiveOn_iff]
  constructor
  · rintro ⟨list, hlist, ⟨-, hnil⟩ | ⟨name, -, hbad, -⟩⟩
    · refine ⟨⟨list, hlist⟩, ?_⟩
      rintro name ⟨list', hlist', hname⟩
      rw [hlist] at hlist'
      cases hlist'
      rw [hnil] at hname
      cases hname
    · cases hbad
  · rintro ⟨⟨list, hlist⟩, hnone⟩
    have hnil : namesOf list = [] :=
      List.eq_nil_iff_forall_not_mem.2 fun name hname => hnone name ⟨list, hlist, hname⟩
    exact ⟨list, hlist, .inl (by simp [hnil])⟩

/-- A name is reported if it is registered and not fit. -/
lemma badName_mem_problems_iff (hline : (linesOf text)[n]? = some line) :
    (n + 1, .badName name) ∈ problems text ↔ (∃ d, Registers d line name) ∧ ¬IsFit name := by
  rw [mem_problems_iff hline]
  simp only [mem_listProblems_iff, registers_iff]
  constructor
  · rintro ⟨d, list, hlist, ⟨hbad, -⟩ | ⟨name', hname, hbad, hfit⟩⟩
    · cases hbad
    · cases hbad
      exact ⟨⟨d, list, hlist, hname⟩, hfit⟩
  · rintro ⟨⟨d, list, hlist, hname⟩, hfit⟩
    exact ⟨d, list, hlist, .inr ⟨name, hname, rfl, hfit⟩⟩

/-- Only lists are reported, so something stands behind a mark of the line. -/
lemma exists_marks_of_mem_problems (hline : (linesOf text)[n]? = some line)
    (h : (n + 1, problem) ∈ problems text) :
    ∃ d before tail, Marks d line before tail ∧ tail ≠ [] := by
  obtain ⟨d, list, hlist, -⟩ := (mem_problems_iff hline).1 h
  exact ⟨d, exists_directiveOn_iff.1 ⟨list, hlist⟩⟩

/-- Whether a line of a text is heeded: names are registered from it and all of them are fit, or a
problem is reported with its number. -/
def IsHeeded (text : String) (n : Nat) (line : List Char) : Prop :=
  ((∃ d name, Registers d line name) ∧ ∀ d name, Registers d line name → IsFit name) ∨
    ∃ problem, (n + 1, problem) ∈ problems text

/-- A line without a problem is heeded, if something stands behind a mark. -/
lemma isHeeded_iff (hline : (linesOf text)[n]? = some line) :
    IsHeeded text n line ↔ ∃ d before tail, Marks d line before tail ∧ tail ≠ [] := by
  constructor
  · rintro (⟨⟨d, name, hname⟩, -⟩ | ⟨problem, hproblem⟩)
    · exact ⟨d, hname.exists_marks⟩
    · exact exists_marks_of_mem_problems hline hproblem
  · rintro ⟨d, hmarks⟩
    by_cases hproblem : ∃ problem, (n + 1, problem) ∈ problems text
    · exact .inr hproblem
    refine .inl ⟨?_, fun d' name hname => ?_⟩
    · by_contra hnone
      push Not at hnone
      exact hproblem ⟨_, (noNames_mem_problems_iff hline).2 ⟨d, hmarks, hnone d⟩⟩
    · by_contra hfit
      exact hproblem ⟨_, (badName_mem_problems_iff hline).2 ⟨⟨d', hname⟩, hfit⟩⟩

/-- **Comments have an effect or are reported.**  Take a line of a text.  Names that its comments
register are in effect: those of a comment that covers lines on its line and the next one, those of
a comment that covers the file everywhere.  A comment that registers nothing is reported, and so is
every registered name with a character that names do not have; nothing else is reported with the
number of the line.  So the line is heeded exactly if it has a mark with anything behind it, be it
blanks.  If the only mark stands at its end, then nothing is registered and nothing is reported. -/
theorem isHeeded_law {text : String} {n : Nat} {line : List Char}
    (hline : (linesOf text)[n]? = some line) :
    ((∀ name, Registers .line line name → name ∈ (Suppressions.ofText text).namesFor (n + 1) ∧
        name ∈ (Suppressions.ofText text).namesFor (n + 2)) ∧
      ∀ name, Registers .file line name → name ∈ (Suppressions.ofText text).fileNames) ∧
    (∀ problem, (n + 1, problem) ∈ problems text ↔
      (problem = .noNames ∧ ∃ d, (∃ before tail, Marks d line before tail ∧ tail ≠ []) ∧
        ∀ name, ¬Registers d line name) ∨
      ∃ name, problem = .badName name ∧ (∃ d, Registers d line name) ∧ ¬IsFit name) ∧
    (IsHeeded text n line ↔ ∃ d before tail, Marks d line before tail ∧ tail ≠ []) ∧
    ((∀ d before tail, Marks d line before tail → tail = []) →
      (∀ d name, ¬Registers d line name) ∧ ∀ problem, (n + 1, problem) ∉ problems text) := by
  refine ⟨⟨fun name hname => ⟨?_, ?_⟩, fun name hname => ?_⟩, fun problem => ?_,
    isHeeded_iff hline, fun hends => ⟨fun d name hname => ?_, fun problem hproblem => ?_⟩⟩
  · exact (Suppressions.mem_namesFor_iff text n name).2 ⟨n, line, hline, hname, .inl rfl⟩
  · have hnext := (Suppressions.mem_namesFor_iff text (n + 1) name).2
      ⟨n, line, hline, hname, .inr rfl⟩
    rwa [Int.natCast_succ, Int.add_assoc] at hnext
  · rw [Suppressions.ofText, List.mem_flatMap]
    exact ⟨line, List.mem_of_getElem? hline, hname⟩
  · cases problem with
    | noNames => simp [noNames_mem_problems_iff hline]
    | badName name => simp [badName_mem_problems_iff hline]
  · obtain ⟨before, tail, hmarks, htail⟩ := hname.exists_marks
    exact htail (hends d before tail hmarks)
  · obtain ⟨d, before, tail, hmarks, htail⟩ := exists_marks_of_mem_problems hline hproblem
    exact htail (hends d before tail hmarks)

theorem isHeeded_law_blank : (linesOf "// ignore: ")[0]? = some "// ignore: ".toList ∧
    IsHeeded "// ignore: " 0 "// ignore: ".toList := by
  have hline : (linesOf "// ignore: ")[0]? = some "// ignore: ".toList := by decide
  have hblank : ∀ c ∈ [' '], Text.isBlank c = true := List.forall_mem_singleton.2 rfl
  obtain ⟨-, -, hheeded, -⟩ := isHeeded_law hline
  exact ⟨hline, hheeded.2 ⟨.line, [], [' '], ⟨[' '], rfl, hblank⟩, List.cons_ne_nil _ _⟩⟩

/-- A mark at the end of a line is not heeded. -/
theorem not_forall_isHeeded_of_marks :
    ¬∀ (text : String) (n : Nat) (line : List Char), (linesOf text)[n]? = some line →
      (∃ d before tail, Marks d line before tail) → IsHeeded text n line := by
  intro hall
  have hline : (linesOf "// ignore:")[0]? = some "// ignore:".toList := by decide
  have hmark : Marks .line "// ignore:".toList [] [] :=
    ⟨[' '], rfl, List.forall_mem_singleton.2 rfl⟩
  have hnone : ∀ d, directiveOn d "// ignore:".toList = none := by
    intro d
    cases d <;> decide
  rcases hall "// ignore:" 0 _ hline ⟨.line, [], [], hmark⟩ with ⟨⟨d, name, hname⟩, -⟩ | ⟨p, hp⟩
  · obtain ⟨list, hlist, -⟩ := registers_iff.1 hname
    rw [hnone] at hlist
    cases hlist
  · obtain ⟨d, list, hlist, -⟩ := (mem_problems_iff hline).1 hp
    rw [hnone] at hlist
    cases hlist

end Reported

end Suppression

end TreeLint
