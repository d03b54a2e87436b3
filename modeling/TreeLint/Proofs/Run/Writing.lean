/-
A suppression comment that is written is read back.

A comment is written with two slashes, the word of its sort and names between commas,
with blanks wherever they may stand (`Suppression.Writes`).  Behind a line without two
slashes it is the only comment of its line, and its names are read back as they were
written (`Suppression.exists_directiveOn_append`).

The comment makes no other change: the lines of the text stay the same but for the one
that it ends (`Suppression.linesOf_append`), and what comments do is said line by line.  So exactly
its names are added, where they belong, and no problem is added or lost.  Names that
stand for nothing but themselves suppress exactly the rules of these names.
-/
import TreeLint.Proofs.Run.Directive
import TreeLint.Proofs.Syntax.Offset
namespace TreeLint

/-! ### Blanks around a name -/

namespace Text

variable {before name after : List Char}

lemma trimBlanks_cons_of_isBlank {c : Char} (h : isBlank c = true) (s : List Char) :
    trimBlanks (c :: s) = trimBlanks s := by
  rw [trimBlanks, trimBlanksLeft, List.dropWhile_cons_of_pos h]
  rfl

lemma trimBlanksLeft_append (hbefore : ∀ c ∈ before, isBlank c = true) (s : List Char) :
    trimBlanksLeft (before ++ s) = trimBlanksLeft s :=
  List.dropWhile_append_of_pos hbefore

/-- What has no blanks in it is left when the blanks around it are removed. -/
lemma trimBlanks_append (hbefore : ∀ c ∈ before, isBlank c = true)
    (hname : ∀ c ∈ name, isBlank c = false) (hafter : ∀ c ∈ after, isBlank c = true) :
    trimBlanks (before ++ name ++ after) = name := by
  have hkept : ∀ s : List Char, (∀ c ∈ s, isBlank c = false) → s.dropWhile isBlank = s := by
    intro s hs
    cases s with
    | nil => rfl
    | cons c rest => exact List.dropWhile_cons_of_neg (by simp [hs c])
  have hright : trimBlanksRight (name ++ after) = name := by
    rw [trimBlanksRight, List.reverse_append,
      List.dropWhile_append_of_pos (fun c hc => hafter c (List.mem_reverse.1 hc)),
      hkept _ (fun c hc => hname c (List.mem_reverse.1 hc)), List.reverse_reverse]
  rw [trimBlanks, List.append_assoc, trimBlanksLeft_append hbefore]
  cases name with
  | nil =>
    have hnil : trimBlanksLeft after = [] := List.dropWhile_eq_nil_iff.2 hafter
    rw [List.nil_append, hnil, trimBlanksRight_nil]
  | cons c rest =>
    rw [List.cons_append, trimBlanksLeft, List.dropWhile_cons_of_neg (by simp [hname c])]
    exact hright

end Text

/-! ### Names that stand for themselves -/

namespace Glob

/-- A name without the characters that open a pattern. -/
def IsPlain (name : String) : Prop :=
  ∀ c ∈ name.toList, c ≠ '*' ∧ c ≠ '?' ∧ c ≠ '['

instance (name : String) : Decidable (IsPlain name) :=
  List.decidableBAll (fun c => c ≠ '*' ∧ c ≠ '?' ∧ c ≠ '[') name.toList

lemma parse_of_plain {s : List Char} (h : ∀ c ∈ s, c ≠ '*' ∧ c ≠ '?' ∧ c ≠ '[') :
    parse s = s.map .char := by
  induction s with
  | nil => rw [parse, List.map_nil]
  | cons c rest ih =>
    obtain ⟨⟨hstar, hmark, hbracket⟩, hrest⟩ := List.forall_mem_cons.1 h
    rw [parse, ih hrest, List.map_cons]
    · exact hstar
    · exact hmark
    · exact hbracket

lemma matchParts_map_char (s t : List Char) : matchParts (s.map .char) t = true ↔ s = t := by
  induction s generalizing t with
  | nil =>
    rw [List.map_nil, matchParts, List.isEmpty_iff]
    exact eq_comm
  | cons c rest ih =>
    cases t with
    | nil => simp [matchParts]
    | cons d t =>
      rw [List.map_cons, matchParts, Bool.and_eq_true, ih, List.cons_eq_cons, partAccepts,
        beq_iff_eq]
      · exact and_congr_left' eq_comm
      · intro h
        cases h

/-- A plain name matches itself and nothing else. -/
lemma matches_iff_eq {name : String} (h : IsPlain name) (rule : String) :
    Glob.matches name rule = true ↔ name = rule := by
  rw [matches_eq_matchParts, parse_of_plain h, matchParts_map_char, String.toList_inj]

end Glob

namespace Suppression

/-! ### How a comment is written -/

instance (name : String) : Decidable (IsFit name) := decidable_of_iff _ isFit_iff.symm

/-- Blanks on a line. -/
def AreBlanks (s : List Char) : Prop := ∀ c ∈ s, Text.isBlank c = true ∧ c ≠ '\n'

instance (s : List Char) : Decidable (AreBlanks s) :=
  List.decidableBAll (fun c => Text.isBlank c = true ∧ c ≠ '\n') s

/-- An entry that holds a name, with blanks around it. -/
def Holds (entry : List Char) (name : String) : Prop :=
  ∃ before after, entry = before ++ name.toList ++ after ∧ AreBlanks before ∧ AreBlanks after

/-- A comment of a sort that lists names: two slashes, blanks, the word of the sort and the names,
separated by commas and with blanks around each of them. -/
def Writes (d : Directive) (names : List String) (comment : List Char) : Prop :=
  ∃ blanks entries, comment = ['/', '/'] ++ blanks ++ d.word ++ [','].intercalate entries ∧
    AreBlanks blanks ∧ List.Forall₂ Holds entries names

/-- A line of a text, between what stands before and behind it. -/
structure IsLine (before line after : List Char) : Prop where
  /-- It starts the text or follows a line feed. -/
  starts : before = [] ∨ ∃ above, before = above ++ ['\n']
  /-- It ends the text, or a line feed follows. -/
  ends : after = [] ∨ ∃ below, after = '\n' :: below
  /-- It is one line. -/
  feed_not_mem : '\n' ∉ line

variable {d d' : Directive} {names : List String} {comment before line after : List Char}

/-! ### The lines of a text -/

lemma splitAtChar_eq_splitOn (separator : Char) (s : List Char) :
    splitAtChar separator s = s.splitOn separator := by
  induction s with
  | nil => rfl
  | cons c rest ih =>
    obtain ⟨piece, pieces, hrest⟩ := List.exists_cons_of_ne_nil (List.splitOn_ne_nil separator rest)
    rw [splitAtChar, List.splitOn_cons_eq_if_modifyHead, ih, hrest]
    simp only [beq_iff_eq]
    rfl

/-- The other lines of a text do not depend on a line. -/
lemma IsLine.exists_splitAtChar (h : IsLine before line after) :
    ∃ above below, above.length = before.count '\n' ∧ ∀ line', '\n' ∉ line' →
      splitAtChar '\n' (before ++ line' ++ after) = above ++ line' :: below := by
  have hbelow : ∃ below, ∀ line', '\n' ∉ line' →
      splitAtChar '\n' (line' ++ after) = line' :: below := by
    rcases h.ends with rfl | ⟨rest, rfl⟩
    · refine ⟨[], fun line' hline' => ?_⟩
      rw [List.append_nil, splitAtChar_eq_splitOn, List.splitOn_eq_singleton hline']
    · refine ⟨splitAtChar '\n' rest, fun line' hline' => ?_⟩
      simp only [splitAtChar_eq_splitOn]
      exact List.splitOn_append_cons_self_of_not_mem hline' rest
  obtain ⟨below, hbelow⟩ := hbelow
  rcases h.starts with rfl | ⟨first, rfl⟩
  · exact ⟨[], below, rfl, fun line' hline' => by rw [List.nil_append, hbelow line' hline']; rfl⟩
  · refine ⟨splitAtChar '\n' first, below, ?_, fun line' hline' => ?_⟩
    · rw [length_splitAtChar, List.count_append, List.count_singleton_self]
    · rw [← hbelow line' hline', splitAtChar_eq_splitOn, List.append_assoc, List.append_assoc,
        List.singleton_append, List.splitOn_append_cons_self, ← splitAtChar_eq_splitOn,
        ← splitAtChar_eq_splitOn]

/-- What is appended to a line of a text changes that line and no other. -/
lemma linesOf_append (h : IsLine before line after) (hcomment : '\n' ∉ comment) :
    (linesOf (String.ofList (before ++ line ++ after)))[before.count '\n']? = some line ∧
      linesOf (String.ofList (before ++ (line ++ comment) ++ after)) =
        (linesOf (String.ofList (before ++ line ++ after))).set (before.count '\n')
          (line ++ comment) := by
  obtain ⟨above, below, hlength, hsplit⟩ := h.exists_splitAtChar
  have hfeed : '\n' ∉ line ++ comment := by
    rw [List.mem_append, not_or]
    exact ⟨h.feed_not_mem, hcomment⟩
  simp only [linesOf, String.toList_ofList, hsplit line h.feed_not_mem, hsplit _ hfeed, ← hlength]
  simp

/-! ### The comment that is found -/

/-- A line without two slashes has no comment. -/
lemma directiveOn_of_not_infix (h : ¬['/', '/'] <:+: line) : directiveOn d line = none := by
  refine directiveOn_eq_none_iff.2 fun before tail hmarks => ?_
  obtain ⟨blanks, rfl, -⟩ := hmarks
  exact absurd ⟨before, blanks ++ d.word ++ tail, by simp⟩ h

lemma directiveAt_of_third_slash (rest : List Char) :
    directiveAt d ('/' :: '/' :: '/' :: rest) = none := by
  cases d <;> rfl

/-- The search goes through a line without two slashes up to two slashes behind it. -/
lemma directiveOn_append_slashes (h : ¬['/', '/'] <:+: line) (rest : List Char) :
    directiveOn d (line ++ '/' :: '/' :: rest) = directiveOn d ('/' :: '/' :: rest) := by
  induction line with
  | nil => rfl
  | cons c line ih =>
    have hrest : ¬['/', '/'] <:+: line :=
      fun hline => h (hline.trans (List.suffix_cons c line).isInfix)
    have hnone : directiveAt d (c :: line ++ '/' :: '/' :: rest) = none := by
      by_cases hc : c = '/'
      · subst hc
        cases line with
        | nil => exact directiveAt_of_third_slash rest
        | cons b line =>
          have hb : b ≠ '/' := by
            rintro rfl
            exact h ⟨[], line, rfl⟩
          rw [directiveAt]
          rintro rest' heq
          exact hb (List.cons_eq_cons.1 (List.cons_eq_cons.1 heq).2).1
      · rw [directiveAt]
        rintro rest' heq
        exact hc (List.cons_eq_cons.1 heq).1
    rw [List.cons_append, directiveOn, ← List.cons_append, hnone]
    exact ih hrest

lemma afterWord_word (d : Directive) (tail : List Char) :
    afterWord d.word (d.word ++ tail) = some tail :=
  afterWord_eq_some_iff.2 rfl

/-- The word of one sort does not begin like that of the other. -/
lemma afterWord_word_of_ne (h : d' ≠ d) (tail : List Char) :
    afterWord d'.word (d.word ++ tail) = none := by
  cases d <;> cases d' <;> first | exact absurd rfl h | rfl

/-! ### The names that are read -/

lemma toNat_of_isAlphanum {c : Char} (h : c.isAlphanum = true) :
    48 ≤ c.toNat ∧ c.toNat ≤ 57 ∨ 65 ≤ c.toNat ∧ c.toNat ≤ 90 ∨
      97 ≤ c.toNat ∧ c.toNat ≤ 122 := by
  change ((decide (65 ≤ c.val ∧ c.val ≤ 90) || decide (97 ≤ c.val) && decide (c.val ≤ 122)) ||
    decide (48 ≤ c.val) && decide (c.val ≤ 57)) = true at h
  simp only [Bool.or_eq_true, Bool.and_eq_true, decide_eq_true_eq, UInt32.le_iff_toNat_le] at h
  change ((65 ≤ c.toNat ∧ c.toNat ≤ 90) ∨ 97 ≤ c.toNat ∧ c.toNat ≤ 122) ∨
    48 ≤ c.toNat ∧ c.toNat ≤ 57 at h
  omega

/-- The characters of names are not blank, and no slashes, commas or line feeds. -/
lemma of_isFit {name : String} (h : IsFit name) {c : Char} (hc : c ∈ name.toList) :
    Text.isBlank c = false ∧ c ≠ '/' ∧ c ≠ ',' ∧ c ≠ '\n' := by
  rcases h c hc with halnum | hother
  · have hrange := toNat_of_isAlphanum halnum
    have hblank : Text.isBlank c = false := by
      simp only [Text.isBlank, Bool.or_eq_false_iff, Bool.and_eq_false_iff,
        decide_eq_false_iff_not, beq_eq_false_iff_ne]
      omega
    refine ⟨hblank, ?_, ?_, ?_⟩ <;>
    · rintro rfl
      revert hrange
      decide
  · simp only [List.mem_cons, List.not_mem_nil, or_false] at hother
    rcases hother with rfl | rfl | rfl | rfl | rfl | rfl | rfl <;> decide

lemma not_isBlank_comma : Text.isBlank ',' = false := rfl

/-- Blanks before a list do not belong to its entries. -/
lemma entriesOf_trimBlanksLeft (s : List Char) :
    entriesOf (Text.trimBlanksLeft s) = entriesOf s := by
  induction s with
  | nil => rfl
  | cons c rest ih =>
    by_cases hc : Text.isBlank c = true
    · have hne : c ≠ ',' := by
        rintro rfl
        rw [not_isBlank_comma] at hc
        cases hc
      obtain ⟨piece, pieces, hrest⟩ :=
        List.exists_cons_of_ne_nil (splitAtChar_ne_nil ',' rest)
      rw [Text.trimBlanksLeft, List.dropWhile_cons_of_pos hc, ← Text.trimBlanksLeft, ih]
      simp only [entriesOf, splitAtChar, hrest, if_neg hne, List.map_cons,
        Text.trimBlanks_cons_of_isBlank hc]
    · rw [Text.trimBlanksLeft, List.dropWhile_cons_of_neg hc]

section Written

variable {entry : List Char} {name : String} {entries : List (List Char)}

lemma AreBlanks.isBlank {s : List Char} (h : AreBlanks s) : ∀ c ∈ s, Text.isBlank c = true :=
  fun c hc => (h c hc).1

lemma AreBlanks.not_mem {s : List Char} (h : AreBlanks s) {c : Char}
    (hc : Text.isBlank c = false) : c ∉ s := by
  intro hmem
  rw [h.isBlank c hmem] at hc
  cases hc

/-- Blanks and a name make no slashes, commas or line feeds. -/
lemma Holds.not_mem (h : Holds entry name) (hfit : IsFit name) :
    '/' ∉ entry ∧ ',' ∉ entry ∧ '\n' ∉ entry := by
  obtain ⟨before, after, rfl, hbefore, hafter⟩ := h
  simp only [List.mem_append, not_or]
  refine ⟨⟨⟨hbefore.not_mem rfl, fun hc => ?_⟩, hafter.not_mem rfl⟩,
    ⟨⟨hbefore.not_mem rfl, fun hc => ?_⟩, hafter.not_mem rfl⟩,
    ⟨⟨fun hc => (hbefore _ hc).2 rfl, fun hc => ?_⟩, fun hc => (hafter _ hc).2 rfl⟩⟩
  · exact (of_isFit hfit hc).2.1 rfl
  · exact (of_isFit hfit hc).2.2.1 rfl
  · exact (of_isFit hfit hc).2.2.2 rfl

lemma Holds.trimBlanks_eq (h : Holds entry name) (hfit : IsFit name) :
    Text.trimBlanks entry = name.toList := by
  obtain ⟨before, after, rfl, hbefore, hafter⟩ := h
  exact Text.trimBlanks_append hbefore.isBlank (fun c hc => (of_isFit hfit hc).1) hafter.isBlank

/-- The entries of a list are read back. -/
lemma entriesOf_intercalate (h : List.Forall₂ Holds entries names) (hnames : names ≠ [])
    (hfit : ∀ name ∈ names, IsFit name) :
    entriesOf ([','].intercalate entries) = names.map String.toList := by
  have hentries : entries ≠ [] := by
    rintro rfl
    exact hnames (List.forall₂_nil_left_iff.1 h)
  have hcomma : ∀ entry ∈ entries, ',' ∉ entry := by
    clear hentries hnames
    induction h with
    | nil => exact fun entry hentry => nomatch hentry
    | cons hfirst _ ih =>
      rw [List.forall_mem_cons] at hfit ⊢
      exact ⟨(hfirst.not_mem hfit.1).2.1, ih hfit.2⟩
  rw [entriesOf, splitAtChar_eq_splitOn, List.splitOn_intercalate ',' hcomma hentries]
  clear hentries hnames hcomma
  induction h with
  | nil => rfl
  | cons hfirst _ ih =>
    rw [List.forall_mem_cons] at hfit
    rw [List.map_cons, List.map_cons, hfirst.trimBlanks_eq hfit.1, ih hfit.2]

lemma namesOf_of_entriesOf {list : List Char}
    (h : entriesOf list = names.map String.toList) (hne : ∀ name ∈ names, name ≠ "") :
    namesOf list = names := by
  rw [namesOf, h, List.filter_eq_self.2, List.map_map, ← List.map_id names, List.map_map]
  · exact List.map_congr_left fun name _ => String.ofList_toList
  · rintro entry hentry
    obtain ⟨name, hname, rfl⟩ := List.mem_map.1 hentry
    simpa using hne name hname

/-- Behind its first two slashes a comment has no slash, and it stays on its line. -/
lemma Writes.exists_eq (h : Writes d names comment) (hfit : ∀ name ∈ names, IsFit name) :
    ∃ rest, comment = '/' :: '/' :: rest ∧ '/' ∉ rest ∧ '\n' ∉ comment := by
  obtain ⟨blanks, entries, rfl, hblanks, hentries⟩ := h
  have hnot : ∀ c, (c = '/' ∨ c = '\n') → c ∉ [','].intercalate entries := by
    intro c hc
    induction hentries with
    | nil => simp
    | @cons entry name entries names hfirst _ ih =>
      rw [List.forall_mem_cons] at hfit
      have hentry : c ∉ entry := by
        rcases hc with rfl | rfl
        · exact (hfirst.not_mem hfit.1).1
        · exact (hfirst.not_mem hfit.1).2.2
      have hrest := ih hfit.2
      cases entries with
      | nil => simpa using hentry
      | cons next entries =>
        have hcomma : c ≠ ',' := by
          rcases hc with rfl | rfl <;> decide
        rw [List.intercalate_cons_cons]
        simp [hentry, hcomma, hrest]
  refine ⟨blanks ++ d.word ++ [','].intercalate entries, by simp, ?_, ?_⟩
  · have hword : '/' ∉ d.word := by cases d <;> decide
    simp only [List.mem_append, not_or]
    exact ⟨⟨hblanks.not_mem rfl, hword⟩, hnot '/' (.inl rfl)⟩
  · have hword : '\n' ∉ d.word := by cases d <;> decide
    simp only [List.mem_append, not_or]
    exact ⟨⟨⟨by decide, fun hc => (hblanks _ hc).2 rfl⟩, hword⟩, hnot '\n' (.inr rfl)⟩

/-- Behind a line without two slashes, a comment is found under its sort, with its names. -/
lemma exists_directiveOn_append (hline : ¬['/', '/'] <:+: line) (h : Writes d names comment)
    (hnames : names ≠ []) (hfit : ∀ name ∈ names, name ≠ "" ∧ IsFit name) :
    ∃ list, namesOf list = names ∧
      ∀ d', directiveOn d' (line ++ comment) = if d' = d then some list else none := by
  have hfits : ∀ name ∈ names, IsFit name := fun name hname => (hfit name hname).2
  obtain ⟨rest, hcomment, hrest, -⟩ := h.exists_eq hfits
  obtain ⟨blanks, entries, hwritten, hblanks, hentries⟩ := h
  have hsplit : rest = blanks ++ (d.word ++ [','].intercalate entries) := by
    rw [hcomment] at hwritten
    simpa using hwritten
  have hnamesOf : namesOf (Text.trimBlanksLeft ([','].intercalate entries)) = names := by
    refine namesOf_of_entriesOf ?_ fun name hname => (hfit name hname).1
    rw [entriesOf_trimBlanksLeft, entriesOf_intercalate hentries hnames hfits]
  refine ⟨_, hnamesOf, fun d' => ?_⟩
  have hat : directiveAt d' ('/' :: '/' :: rest) =
      (afterWord d'.word (d.word ++ [','].intercalate entries)).bind listIn := by
    obtain ⟨w, hword⟩ := word_eq_cons d
    rw [directiveAt, hsplit, Text.trimBlanksLeft_append hblanks.isBlank, hword]
    rfl
  rw [hcomment, directiveOn_append_slashes hline, directiveOn, hat]
  by_cases hd : d' = d
  · subst hd
    have hlist : listIn ([','].intercalate entries) =
        some (Text.trimBlanksLeft ([','].intercalate entries)) := by
      rw [listIn]
      split
      · next hnil =>
        rw [hnil] at hnamesOf
        exact absurd hnamesOf.symm hnames
      · rfl
    rw [afterWord_word, Option.bind_some, hlist, if_pos rfl]
  · rw [afterWord_word_of_ne hd, Option.bind_none, if_neg hd]
    refine directiveOn_of_not_infix fun hinfix => hrest ?_
    obtain ⟨before, after, heq⟩ := hinfix
    cases before with
    | nil =>
      have htail := (List.cons_eq_cons.1 heq).2
      rw [← htail]
      exact List.mem_cons_self
    | cons c before =>
      have htail := (List.cons_eq_cons.1 heq).2
      rw [← htail]
      simp

lemma registers_append_iff (hline : ¬['/', '/'] <:+: line) (h : Writes d names comment)
    (hnames : names ≠ []) (hfit : ∀ name ∈ names, name ≠ "" ∧ IsFit name) :
    Registers d' (line ++ comment) name ↔ d' = d ∧ name ∈ names := by
  obtain ⟨list, hlist, hon⟩ := exists_directiveOn_append hline h hnames hfit
  rw [registers_iff, hon]
  by_cases hd : d' = d <;> simp [hd, hlist]

lemma not_registers (hline : ¬['/', '/'] <:+: line) : ¬Registers d' line name := by
  rw [registers_iff, directiveOn_of_not_infix hline]
  simp

lemma lineProblems_of_not_infix (hline : ¬['/', '/'] <:+: line) : lineProblems line = [] := by
  simp [lineProblems, directiveOn_of_not_infix hline]

/-- Nothing is wrong with a comment that lists fit names. -/
lemma lineProblems_append (hline : ¬['/', '/'] <:+: line) (h : Writes d names comment)
    (hnames : names ≠ []) (hfit : ∀ name ∈ names, name ≠ "" ∧ IsFit name) :
    lineProblems (line ++ comment) = [] := by
  obtain ⟨list, hlist, hon⟩ := exists_directiveOn_append hline h hnames hfit
  refine List.eq_nil_iff_forall_not_mem.2 fun problem hproblem => ?_
  obtain ⟨d', list', hlist', hproblem⟩ := mem_lineProblems_iff.1 hproblem
  rw [hon] at hlist'
  obtain ⟨-, heq⟩ := Option.ite_none_right_eq_some.1 hlist'
  cases heq
  rcases mem_listProblems_iff.1 hproblem with ⟨-, hnil⟩ | ⟨name, hname, -, hbad⟩
  · exact hnames (hlist.symm.trans hnil)
  · rw [hlist] at hname
    exact hbad (hfit name hname).2

end Written

/-! ### One line of a text changes -/

section Change

variable {lines : List (List Char)} {line' : List Char} {n : Nat}

/-- What holds of a line after another line is put in the place of one for which it did not hold. -/
lemma exists_set_iff {Q : Nat → List Char → Prop} (hline : lines[n]? = some line)
    (hQ : ¬Q n line) :
    (∃ i l, (lines.set n line')[i]? = some l ∧ Q i l) ↔
      (∃ i l, lines[i]? = some l ∧ Q i l) ∨ Q n line' := by
  have hn := (List.getElem?_eq_some_iff.1 hline).1
  constructor
  · rintro ⟨i, l, hl, hq⟩
    rcases eq_or_ne n i with rfl | hne
    · rw [List.getElem?_set_self hn] at hl
      cases hl
      exact .inr hq
    · rw [List.getElem?_set_ne hne] at hl
      exact .inl ⟨i, l, hl, hq⟩
  · rintro (⟨i, l, hl, hq⟩ | hq)
    · have hne : n ≠ i := by
        rintro rfl
        rw [hline] at hl
        cases hl
        exact hQ hq
      exact ⟨i, l, by rw [List.getElem?_set_ne hne, hl], hq⟩
    · exact ⟨n, line', List.getElem?_set_self hn, hq⟩

/-- Problems are found line by line. -/
lemma problemsFrom_set (hline : lines[n]? = some line)
    (h : lineProblems line' = lineProblems line) (m : Nat) :
    problemsFrom m (lines.set n line') = problemsFrom m lines := by
  induction lines generalizing n m with
  | nil => rfl
  | cons first rest ih =>
    cases n with
    | zero =>
      cases hline
      rw [List.set_cons_zero, problemsFrom, problemsFrom, h]
    | succ n => rw [List.set_cons_succ, problemsFrom, problemsFrom, ih hline]

end Change

end Suppression

namespace Suppressions

open Suppression

variable (text : String)

/-- The comments that count on a line, for lines with any number. -/
lemma commentOn_or_line_iff {P : Option (List String) → Prop} (hnone : ¬P none) (k : Int) :
    P ((ofText text).commentOn k) ∨ P ((ofText text).commentOn (k - 1)) ↔
      ∃ (i : Nat) (line : List Char), (linesOf text)[i]? = some line ∧
        (P (namesOn .line line) ∧ (k = (i : Int) + 1 ∨ k = (i : Int) + 2)) := by
  by_cases hk : 1 ≤ k
  · obtain ⟨m, rfl⟩ : ∃ m : Nat, k = (m : Int) + 1 := ⟨(k - 1).toNat, by omega⟩
    rw [Int.add_sub_cancel, commentOn_or_iff text hnone]
    refine exists₂_congr fun i line => and_congr_right fun _ => and_congr_right fun _ => ?_
    omega
  · have habove : ∀ k : Int, k < 1 → (ofText text).commentOn k = none := fun k hk => if_pos hk
    rw [habove k (by omega), habove (k - 1) (by omega), or_self]
    refine iff_of_false hnone ?_
    rintro ⟨i, line, -, -, hi⟩
    omega

lemma mem_namesFor_line_iff (k : Int) (name : String) : name ∈ (ofText text).namesFor k ↔
    ∃ (i : Nat) (line : List Char), (linesOf text)[i]? = some line ∧
      (Registers .line line name ∧ (k = (i : Int) + 1 ∨ k = (i : Int) + 2)) := by
  rw [namesFor, List.mem_append]
  exact commentOn_or_line_iff text (P := fun names => name ∈ names.getD []) (by simp) k

lemma isCovered_line_iff (k : Int) : (ofText text).isCovered k = true ↔
    ∃ (i : Nat) (line : List Char), (linesOf text)[i]? = some line ∧
      ((namesOn .line line).isSome = true ∧ (k = (i : Int) + 1 ∨ k = (i : Int) + 2)) := by
  rw [isCovered, Bool.or_eq_true]
  exact commentOn_or_line_iff text (P := fun names => names.isSome = true) (by simp) k

lemma mem_fileNames_line_iff (name : String) : name ∈ (ofText text).fileNames ↔
    ∃ (i : Nat) (line : List Char), (linesOf text)[i]? = some line ∧ Registers .file line name := by
  rw [ofText, List.mem_flatMap]
  constructor
  · rintro ⟨line, hline, hname⟩
    obtain ⟨i, hi⟩ := List.mem_iff_getElem?.1 hline
    exact ⟨i, line, hi, hname⟩
  · rintro ⟨i, line, hi, hname⟩
    exact ⟨line, List.mem_of_getElem? hi, hname⟩

/-- What is suppressed is told by the names that cover the line and those that cover the file. -/
lemma suppresses_iff (s : Suppressions) (rule : String) (k : Int) : s.suppresses rule k = true ↔
    (∃ name ∈ s.fileNames, Glob.matches name rule = true) ∨
      ∃ name ∈ s.namesFor k, Glob.matches name rule = true := by
  rw [suppresses, Bool.or_eq_true, Glob.matchesAny, Glob.matchesAny, List.any_eq_true,
    List.any_eq_true]

end Suppressions

namespace Suppression

open Suppressions

/-! ### A comment is written and read back -/

/-- **A written comment is read back.**  Take a line of a text that has no two slashes, and append a
comment that lists fit names.  The names are added to those that cover the line and the next one, or
to those that cover the file, according to the sort of the comment, and nothing else is added or
lost: no name, no covered line and no problem.  If the names are plain, then what becomes suppressed
is exactly what is said under these names on these lines. -/
theorem suppressions_of_writes {before line after comment : List Char} {d : Directive}
    {names : List String} (hplace : IsLine before line after) (hline : ¬['/', '/'] <:+: line)
    (h : Writes d names comment) (hnames : names ≠ [])
    (hfit : ∀ name ∈ names, name ≠ "" ∧ IsFit name) :
    let old := String.ofList (before ++ line ++ after)
    let new := String.ofList (before ++ (line ++ comment) ++ after)
    let n : Int := before.count '\n' + 1
    (∀ k name, name ∈ (ofText new).namesFor k ↔
      name ∈ (ofText old).namesFor k ∨ d = .line ∧ name ∈ names ∧ (k = n ∨ k = n + 1)) ∧
    (∀ k, (ofText new).isCovered k = true ↔
      (ofText old).isCovered k = true ∨ d = .line ∧ (k = n ∨ k = n + 1)) ∧
    (∀ name, name ∈ (ofText new).fileNames ↔
      name ∈ (ofText old).fileNames ∨ d = .file ∧ name ∈ names) ∧
    problems new = problems old ∧
    ((∀ name ∈ names, Glob.IsPlain name) → ∀ rule k, (ofText new).suppresses rule k = true ↔
      (ofText old).suppresses rule k = true ∨
        rule ∈ names ∧ (d = .file ∨ k = n ∨ k = n + 1)) := by
  intro old new n
  obtain ⟨rest, -, -, hfeed⟩ := h.exists_eq fun name hname => (hfit name hname).2
  obtain ⟨hold, hnew⟩ := linesOf_append hplace hfeed
  have hregisters : ∀ d' name, Registers d' (line ++ comment) name ↔ d' = d ∧ name ∈ names :=
    fun d' name => registers_append_iff hline h hnames hfit
  have hfor : ∀ k name, name ∈ (ofText new).namesFor k ↔
      name ∈ (ofText old).namesFor k ∨ d = .line ∧ name ∈ names ∧ (k = n ∨ k = n + 1) := by
    intro k name
    rw [mem_namesFor_line_iff, mem_namesFor_line_iff, hnew,
      exists_set_iff hold (not_registers hline ·.1), hregisters, and_assoc, eq_comm]
    refine or_congr_right (and_congr_right fun _ => and_congr_right fun _ => ?_)
    omega
  have hfile : ∀ name, name ∈ (ofText new).fileNames ↔
      name ∈ (ofText old).fileNames ∨ d = .file ∧ name ∈ names := by
    intro name
    rw [mem_fileNames_line_iff, mem_fileNames_line_iff, hnew,
      exists_set_iff hold (not_registers hline), hregisters, eq_comm]
  refine ⟨hfor, fun k => ?_, hfile, ?_, fun hplain rule k => ?_⟩
  · obtain ⟨list, -, hon⟩ := exists_directiveOn_append hline h hnames hfit
    have hnone : ¬(namesOn .line line).isSome = true := by
      simp [namesOn, directiveOn_of_not_infix hline]
    have hsome : (namesOn .line (line ++ comment)).isSome = true ↔ d = .line := by
      rw [namesOn, hon]
      by_cases hd : Directive.line = d
      · simp [← hd]
      · simp [hd, Ne.symm hd]
    rw [isCovered_line_iff, isCovered_line_iff, hnew, exists_set_iff hold (hnone ·.1), hsome]
    refine or_congr_right (and_congr_right fun _ => ?_)
    omega
  · rw [problems, problems, hnew, problemsFrom_set hold]
    rw [lineProblems_append hline h hnames hfit, lineProblems_of_not_infix hline]
  · have hrule : rule ∈ names ↔ ∃ name ∈ names, Glob.matches name rule = true := by
      constructor
      · exact fun hrule => ⟨rule, hrule, (Glob.matches_iff_eq (hplain rule hrule) rule).2 rfl⟩
      · rintro ⟨name, hname, hmatches⟩
        rwa [← (Glob.matches_iff_eq (hplain name hname) rule).1 hmatches]
    rw [suppresses_iff, suppresses_iff, hrule]
    simp only [hfor, hfile]
    cases d <;> grind

theorem suppressions_of_writes_crowded :
    IsLine "x\n".toList "y = 1 /".toList "\nz".toList ∧
    ¬['/', '/'] <:+: "y = 1 /".toList ∧
    Writes .line ["a", "b-2"] "// ignore: \ta ,b-2\r".toList ∧
    (Suppressions.ofText "x\ny = 1 /// ignore: \ta ,b-2\r\nz").suppresses "b-2" 3 = true ∧
    problems "x\ny = 1 /// ignore: \ta ,b-2\r\nz" = problems "x\ny = 1 /\nz" := by
  have hplace : IsLine "x\n".toList "y = 1 /".toList "\nz".toList :=
    ⟨.inr ⟨['x'], rfl⟩, .inr ⟨['z'], rfl⟩, by decide⟩
  have hline : ¬['/', '/'] <:+: "y = 1 /".toList := by decide
  have hfirst : Holds " \ta ".toList "a" := ⟨[' ', '\t'], [' '], rfl, by decide, by decide⟩
  have hsecond : Holds "b-2\r".toList "b-2" := ⟨[], ['\r'], rfl, by decide, by decide⟩
  have hwritten : Writes .line ["a", "b-2"] "// ignore: \ta ,b-2\r".toList :=
    ⟨[' '], [" \ta ".toList, "b-2\r".toList], rfl, by decide, .cons hfirst (.cons hsecond .nil)⟩
  have hfit : ∀ name ∈ ["a", "b-2"], name ≠ "" ∧ IsFit name := by decide
  have hplain : ∀ name ∈ ["a", "b-2"], Glob.IsPlain name := by decide
  obtain ⟨-, -, -, hproblems, hsuppresses⟩ :=
    suppressions_of_writes hplace hline hwritten (List.cons_ne_nil _ _) hfit
  exact ⟨hplace, hline, hwritten, (hsuppresses hplain "b-2" 3).2 (.inr (by decide)), hproblems⟩

end Suppression

end TreeLint
