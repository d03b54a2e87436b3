/-
Which comment of a line counts.

A comment of a sort is two slashes, the word of the sort and a list of names that
reaches to the end of the line, with any blanks before and after the word
(`Suppression.Opens`).  Where several places of a line start such a comment, the
leftmost counts, and where blanks could belong to the list, the list is as short as
possible: `Suppression.IsComment`.  A search from left to right finds it
(`directiveOn_eq_some_iff`), and a pattern is listed when it is an entry of its list
(`Suppression.Lists`).
-/
import Mathlib.Data.List.Basic
import Mathlib.Data.List.TakeWhile
import TreeLint.Run.Suppression
namespace TreeLint

namespace Suppression

/-! ### Comments -/

/-- Blanks before a list of names; the list is not empty. -/
def IsListOf (s list : List Char) : Prop :=
  ∃ blanks, s = blanks ++ list ∧ (∀ c ∈ blanks, Text.isBlank c = true) ∧ list ≠ []

/-- A comment of a sort at the start of a text, with its list of names. -/
def Opens (d : Directive) (s list : List Char) : Prop :=
  ∃ blanks more,
    s = ['/', '/'] ++ blanks ++ d.word ++ more ++ list ∧
      (∀ c ∈ blanks, Text.isBlank c = true) ∧ (∀ c ∈ more, Text.isBlank c = true) ∧ list ≠ []

/-- The shortest list of some. -/
def IsShortest (P : List Char → Prop) (list : List Char) : Prop :=
  P list ∧ ∀ other, P other → list.length ≤ other.length

/-- The comment of a sort on a line, with its list of names: it is the leftmost, and its list is as
short as possible. -/
def IsComment (d : Directive) (line list : List Char) : Prop :=
  ∃ before rest, line = before ++ rest ∧ IsShortest (Opens d rest) list ∧
    ∀ before' rest' list', line = before' ++ rest' → Opens d rest' list' →
      before.length ≤ before'.length

/-- A list names its entries without the blanks around them, as far as anything is left. -/
def IsNamed (list : List Char) (name : String) : Prop :=
  ∃ entry ∈ splitAtChar ',' list, Text.trimBlanks entry ≠ [] ∧
    name = String.ofList (Text.trimBlanks entry)

/-- Whether the comment of a sort on a line lists a pattern that matches a name. -/
def Lists (d : Directive) (line : List Char) (rule : String) : Prop :=
  ∃ list pattern, IsComment d line list ∧ IsNamed list pattern ∧ Glob.matches pattern rule = true

/-! ### The list of a comment -/

section List

variable {s list other : List Char}

lemma IsListOf.isSuffix (h : IsListOf s list) : list <:+ s := by
  obtain ⟨blanks, rfl, -⟩ := h
  exact List.suffix_append blanks list

/-- What is left of a text without the blanks at its start is the shortest list, if it is not
empty; else the list is the last blank. -/
lemma isShortest_of_listIn (h : listIn s = some list) : IsShortest (IsListOf s) list := by
  have hsplit := List.takeWhile_append_dropWhile (p := Text.isBlank) (l := s)
  have hblank : ∀ c ∈ s.takeWhile Text.isBlank, Text.isBlank c = true :=
    fun c hc => List.mem_takeWhile_imp hc
  rw [listIn, Text.trimBlanksLeft] at h
  split at h
  · next hnil =>
    obtain ⟨last, hlast, rfl⟩ := Option.map_eq_some_iff.1 h
    obtain ⟨init, hinit⟩ := List.getLast?_eq_some_iff.1 hlast
    rw [hnil, List.append_nil] at hsplit
    rw [hsplit] at hblank
    refine ⟨⟨init, hinit, fun c hc => hblank c ?_, List.cons_ne_nil _ _⟩, ?_⟩
    · rw [hinit]
      exact List.mem_append_left _ hc
    · rintro other ⟨blanks, -, -, hother⟩
      exact List.length_pos_iff.2 hother
  · next hdrop =>
    obtain rfl := Option.some.inj h
    refine ⟨⟨_, hsplit.symm, hblank, fun hnil => hdrop (by rw [hnil])⟩, ?_⟩
    -- the blanks before another list do not reach farther
    rintro other ⟨blanks, hs, hblanks, -⟩
    rw [hs, List.dropWhile_append_of_pos hblanks]
    exact (List.dropWhile_suffix _).length_le

lemma not_isListOf_of_listIn (h : listIn s = none) (list : List Char) : ¬IsListOf s list := by
  rintro ⟨blanks, hs, -, hlist⟩
  rw [listIn] at h
  split at h
  · rw [Option.map_eq_none_iff, List.getLast?_eq_none_iff] at h
    rw [h] at hs
    exact hlist (List.append_eq_nil_iff.1 hs.symm).2
  · cases h

lemma afterWord_eq_some_iff {word tail : List Char} :
    afterWord word s = some tail ↔ s = word ++ tail := by
  rw [afterWord, Option.ite_none_right_eq_some, List.isPrefixOf_iff_prefix,
    List.prefix_iff_eq_append]
  constructor
  · rintro ⟨happend, htail⟩
    rw [← happend, Option.some.inj htail]
  · rintro rfl
    simp

end List

/-! ### The comment at the start of a text -/

section Start

variable {d : Directive} {s rest list other : List Char}

lemma word_eq_cons (d : Directive) : ∃ more, d.word = 'i' :: more := by
  cases d <;> exact ⟨_, rfl⟩

/-- Only slashes open a comment, and behind them the blanks and the word are read in one way. -/
lemma opens_iff : Opens d s list ↔
    ∃ rest tail, s = '/' :: '/' :: rest ∧ afterWord d.word (Text.trimBlanksLeft rest) = some tail ∧
      IsListOf tail list := by
  obtain ⟨w, hword⟩ := word_eq_cons d
  constructor
  · rintro ⟨blanks, more, rfl, hblanks, hmore, hlist⟩
    refine ⟨blanks ++ (d.word ++ (more ++ list)), more ++ list, by simp, ?_,
      more, rfl, hmore, hlist⟩
    rw [afterWord_eq_some_iff, Text.trimBlanksLeft, List.dropWhile_append_of_pos hblanks, hword]
    rfl
  · rintro ⟨rest, tail, rfl, hafter, more, rfl, hmore, hlist⟩
    have hsplit := List.takeWhile_append_dropWhile (p := Text.isBlank) (l := rest)
    rw [afterWord_eq_some_iff, Text.trimBlanksLeft] at hafter
    rw [hafter] at hsplit
    refine ⟨rest.takeWhile Text.isBlank, more, ?_, fun c hc => List.mem_takeWhile_imp hc, hmore,
      hlist⟩
    conv_lhs => rw [← hsplit]
    simp

lemma Opens.isSuffix (h : Opens d s list) : list <:+ s := by
  obtain ⟨blanks, more, rfl, -⟩ := h
  exact List.suffix_append _ list

lemma IsShortest.eq (h : IsShortest (Opens d s) list) (hother : IsShortest (Opens d s) other) :
    list = other := by
  have hle := h.2 other hother.1
  have hge := hother.2 list h.1
  -- two lists of a text are both its ends, so their lengths tell them apart
  exact (List.suffix_of_suffix_length_le h.1.isSuffix hother.1.isSuffix hle).eq_of_length
    (Nat.le_antisymm hle hge)

lemma isShortest_of_directiveAt (h : directiveAt d s = some list) :
    IsShortest (Opens d s) list := by
  unfold directiveAt at h
  split at h
  · next rest =>
    obtain ⟨tail, hafter, hlist⟩ := Option.bind_eq_some_iff.1 h
    obtain ⟨hopens, hshortest⟩ := isShortest_of_listIn hlist
    refine ⟨opens_iff.2 ⟨rest, tail, rfl, hafter, hopens⟩, fun other hother => ?_⟩
    obtain ⟨rest', tail', heq, hafter', hother⟩ := opens_iff.1 hother
    cases heq
    rw [hafter] at hafter'
    cases hafter'
    exact hshortest other hother
  · cases h

lemma not_opens_of_directiveAt (h : directiveAt d s = none) (list : List Char) :
    ¬Opens d s list := by
  rintro hopens
  obtain ⟨rest, tail, rfl, hafter, hlist⟩ := opens_iff.1 hopens
  rw [directiveAt, hafter, Option.bind_some] at h
  exact not_isListOf_of_listIn h list hlist

lemma directiveAt_eq_some_iff :
    directiveAt d s = some list ↔ IsShortest (Opens d s) list := by
  refine ⟨isShortest_of_directiveAt, fun h => ?_⟩
  rcases hfound : directiveAt d s with _ | found
  · exact absurd h.1 (not_opens_of_directiveAt hfound list)
  · rw [(isShortest_of_directiveAt hfound).eq h]

end Start

/-! ### The comment on a line -/

section Line

variable {d : Directive} {line list : List Char} {c : Char}

/-- A comment at the start of a line is the leftmost. -/
lemma isComment_iff_of_opens {first : List Char} (h : Opens d line first) :
    IsComment d line list ↔ IsShortest (Opens d line) list := by
  constructor
  · rintro ⟨before, rest, rfl, hshortest, hleft⟩
    have hnil := hleft [] (before ++ rest) first rfl h
    rw [List.length_nil, Nat.le_zero, List.length_eq_zero_iff] at hnil
    subst hnil
    exact hshortest
  · intro hshortest
    exact ⟨[], line, rfl, hshortest, fun before' _ _ _ _ => Nat.zero_le _⟩

/-- Without a comment at the start, the comment is one of the rest of the line. -/
lemma isComment_cons_iff (h : ∀ first, ¬Opens d (c :: line) first) :
    IsComment d (c :: line) list ↔ IsComment d line list := by
  constructor
  · rintro ⟨before, rest, hline, hshortest, hleft⟩
    cases before with
    | nil =>
      rw [List.nil_append] at hline
      exact absurd hshortest.1 (hline ▸ h list)
    | cons b before =>
      obtain ⟨rfl, rfl⟩ := List.cons_eq_cons.1 hline
      refine ⟨before, rest, rfl, hshortest, fun before' rest' list' heq hopens => ?_⟩
      exact Nat.le_of_succ_le_succ
        (hleft (c :: before') rest' list' (by rw [heq, List.cons_append]) hopens)
  · rintro ⟨before, rest, rfl, hshortest, hleft⟩
    refine ⟨c :: before, rest, rfl, hshortest, fun before' rest' list' heq hopens => ?_⟩
    cases before' with
    | nil =>
      rw [List.nil_append] at heq
      exact absurd hopens (heq ▸ h list')
    | cons b before' =>
      have htail := (List.cons_eq_cons.1 heq).2
      exact Nat.succ_le_succ (hleft before' rest' list' htail hopens)

/-- **The comment that counts.**  A search from left to right finds the leftmost comment of a sort,
with the shortest list of names. -/
theorem directiveOn_eq_some_iff (d : Directive) (line list : List Char) :
    directiveOn d line = some list ↔ IsComment d line list := by
  induction line with
  | nil =>
    refine iff_of_false (by simp [directiveOn]) ?_
    rintro ⟨before, rest, heq, ⟨hopens, -⟩, -⟩
    obtain ⟨rest', -, rfl, -⟩ := opens_iff.1 hopens
    simp at heq
  | cons c line ih =>
    rw [directiveOn]
    rcases hfound : directiveAt d (c :: line) with _ | found
    · rw [isComment_cons_iff (not_opens_of_directiveAt hfound)]
      exact ih
    · rw [isComment_iff_of_opens (isShortest_of_directiveAt hfound).1, ← directiveAt_eq_some_iff,
        hfound]

example : directiveOn .line "x = 1; ///ignore:  a, b ".toList = some "a, b ".toList := by decide

end Line

/-! ### The names of a comment -/

lemma mem_namesOf_iff {list : List Char} {name : String} :
    name ∈ namesOf list ↔ IsNamed list name := by
  simp only [namesOf, entriesOf, List.mem_map, List.mem_filter, IsNamed]
  constructor
  · rintro ⟨trimmed, ⟨⟨entry, hentry, rfl⟩, hne⟩, rfl⟩
    exact ⟨entry, hentry, by simpa using hne, rfl⟩
  · rintro ⟨entry, hentry, hne, rfl⟩
    exact ⟨_, ⟨⟨entry, hentry, rfl⟩, by simpa using hne⟩, rfl⟩

/-- The names in a comment match a name if the comment lists a pattern that does. -/
lemma matchesAny_namesOn_iff (d : Directive) (line : List Char) (rule : String) :
    Glob.matchesAny ((namesOn d line).getD []) rule = true ↔ Lists d line rule := by
  rw [namesOn, Glob.matchesAny, List.any_eq_true]
  constructor
  · rintro ⟨pattern, hmem, hmatches⟩
    rcases hlist : directiveOn d line with _ | list
    · simp [hlist] at hmem
    · rw [hlist, Option.map_some, Option.getD_some, mem_namesOf_iff] at hmem
      exact ⟨list, pattern, (directiveOn_eq_some_iff d line list).1 hlist, hmem, hmatches⟩
  · rintro ⟨list, pattern, hcomment, hnamed, hmatches⟩
    refine ⟨pattern, ?_, hmatches⟩
    rw [(directiveOn_eq_some_iff d line list).2 hcomment, Option.map_some, Option.getD_some,
      mem_namesOf_iff]
    exact hnamed

end Suppression

end TreeLint
