/-
Placeholders in message templates.

A placeholder is a numeral between braces.  Two placeholders never overlap, so a
template can be cut at all of them at once (`Template.Cut.exists_isCutOf`): no placeholder
is left in the texts between them, and none begins in one and ends in another
(`Template.Cut.IsCutOf.exists_gap`).  A reader that goes from left to right finds exactly
the placeholders of the cut (`Template.Cut.IsCutOf.pieces_eq`).
-/
import Mathlib.Data.List.Flatten
import TreeLint.Diagnostic.Template
namespace TreeLint

namespace Template

/-! ### Placeholders -/

/-- A numeral: decimal digits of any script. -/
def IsNumeral (s : List Char) : Prop := s ≠ [] ∧ ∀ c ∈ s, ∃ d, Text.digitValue? c = some d

/-- The number that a numeral writes. -/
def valueOf (numeral : List Char) : Nat := Text.ofDigits (numeral.filterMap Text.digitValue?)

/-- The placeholder with a numeral. -/
def placeholder (numeral : List Char) : List Char := '\x7b' :: (numeral ++ ['\x7d'])

/-- Whether a placeholder occurs in a text. -/
def HasPlaceholder (s : List Char) : Prop :=
  ∃ numeral, IsNumeral numeral ∧ placeholder numeral <:+: s

/-- A placeholder of a template and the text behind it. -/
structure Gap where
  /-- The numeral of the placeholder. -/
  numeral : List Char
  /-- The text behind it. -/
  tail : List Char

/-- The index of the argument that belongs into a gap. -/
def Gap.index (g : Gap) : Nat := valueOf g.numeral

/-- A template that is cut at its placeholders. -/
structure Cut where
  /-- The text before the first placeholder. -/
  head : List Char
  /-- The placeholders, each with the text behind it. -/
  gaps : List Gap

namespace Cut

/-- The part of a template from its first placeholder on. -/
def sourceOf (gaps : List Gap) : List Char :=
  gaps.flatMap (fun g => placeholder g.numeral ++ g.tail)

/-- The template that is cut. -/
def source (cut : Cut) : List Char := cut.head ++ sourceOf cut.gaps

/-- The text that is made of a template when the gaps are filled, each with the text for its
index. -/
def filled (cut : Cut) (texts : Nat → String) : List Char :=
  cut.head ++ cut.gaps.flatMap (fun g => (texts g.index).toList ++ g.tail)

/-- Whether some gap is left without argument by a number of arguments. -/
def Lacks (cut : Cut) (count : Nat) : Prop := ∃ g ∈ cut.gaps, count ≤ g.index

/-- Whether some gap holds the argument with an index. -/
def Uses (cut : Cut) (i : Nat) : Prop := ∃ g ∈ cut.gaps, g.index = i

/-- The pieces of the template that is cut. -/
def pieces (cut : Cut) : List TemplatePiece :=
  cut.head.map .char ++
    cut.gaps.flatMap (fun g => .slot g.index g.numeral.length :: g.tail.map .char)

/-- Whether a cut takes a text apart at all its placeholders. -/
structure IsCutOf (cut : Cut) (s : List Char) : Prop where
  source_eq : cut.source = s
  isNumeral : ∀ g ∈ cut.gaps, IsNumeral g.numeral
  head : ¬HasPlaceholder cut.head
  tail : ∀ g ∈ cut.gaps, ¬HasPlaceholder g.tail

end Cut

/-! ### Reading a placeholder -/

section Reading

variable {numeral s rest : List Char} {c : Char}

lemma length_filterMap_digits (h : ∀ c ∈ s, ∃ d, Text.digitValue? c = some d) :
    (s.filterMap Text.digitValue?).length = s.length := by
  induction s with
  | nil => rfl
  | cons c s ih =>
    obtain ⟨⟨d, hd⟩, hrest⟩ := List.forall_mem_cons.1 h
    rw [List.filterMap_cons_some hd, List.length_cons, List.length_cons, ih hrest]

/-- A row of digits reads as a number with no more digits. -/
lemma ofDigits_lt {digits : List Nat} (h : ∀ d ∈ digits, d < 10) :
    Text.ofDigits digits < Nat.pow 10 digits.length := by
  have hfold : ∀ n, digits.foldl (fun n d => 10 * n + d) n <
      (n + 1) * Nat.pow 10 digits.length := by
    induction digits with
    | nil =>
      intro n
      exact Nat.lt_of_lt_of_eq n.lt_succ_self (Nat.mul_one _).symm
    | cons d rest ih =>
      obtain ⟨hd, hrest⟩ := List.forall_mem_cons.1 h
      intro n
      calc rest.foldl (fun n d => 10 * n + d) (10 * n + d)
          < (10 * n + d + 1) * Nat.pow 10 rest.length := ih hrest _
        _ ≤ ((n + 1) * 10) * Nat.pow 10 rest.length := Nat.mul_le_mul_right _ (by omega)
        _ = (n + 1) * Nat.pow 10 (d :: rest).length := by
          rw [Nat.mul_assoc, Nat.mul_comm 10]
          rfl
  exact Nat.lt_of_lt_of_eq (hfold 0) (Nat.one_mul _)

lemma valueOf_lt (h : IsNumeral numeral) : valueOf numeral < Nat.pow 10 numeral.length := by
  rw [← length_filterMap_digits h.2]
  refine ofDigits_lt fun d hd => ?_
  obtain ⟨c, -, hc⟩ := List.mem_filterMap.1 hd
  exact Text.digitValue?_lt hc

/-- Digits are read as far as they go. -/
lemma spanDigits_append (h : ∀ c ∈ s, ∃ d, Text.digitValue? c = some d)
    (hc : Text.digitValue? c = none) :
    spanDigits (s ++ c :: rest) = (s.filterMap Text.digitValue?, c :: rest) := by
  induction s with
  | nil => rw [List.nil_append, spanDigits, hc, List.filterMap_nil]
  | cons b s ih =>
    obtain ⟨⟨d, hd⟩, hrest⟩ := List.forall_mem_cons.1 h
    rw [List.cons_append, spanDigits, hd, ih hrest, List.filterMap_cons_some hd]

lemma exists_append_spanDigits (s : List Char) :
    ∃ digits, (∀ c ∈ digits, ∃ d, Text.digitValue? c = some d) ∧
      (spanDigits s).1 = digits.filterMap Text.digitValue? ∧ s = digits ++ (spanDigits s).2 := by
  induction s with
  | nil => exact ⟨[], by simp, rfl, rfl⟩
  | cons c s ih =>
    obtain ⟨digits, hdigits, hspan, hs⟩ := ih
    rcases hc : Text.digitValue? c with _ | d
    · exact ⟨[], by simp, by simp [spanDigits, hc], by simp [spanDigits, hc]⟩
    · refine ⟨c :: digits, List.forall_mem_cons.2 ⟨⟨d, hc⟩, hdigits⟩, ?_, ?_⟩
      · simp only [spanDigits, hc, hspan, List.filterMap_cons_some hc]
      · simp only [spanDigits, hc, List.cons_append]
        rw [← hs]

lemma digitValue?_open : Text.digitValue? '\x7b' = none := by decide

lemma digitValue?_close : Text.digitValue? '\x7d' = none := by decide

/-- Behind an opening brace the rest of a placeholder is read, and nothing else. -/
lemma slotAfterBrace_eq_some_iff {digits : List Nat} :
    slotAfterBrace s = some (digits, rest) ↔
      ∃ numeral, IsNumeral numeral ∧ digits = numeral.filterMap Text.digitValue? ∧
        s = numeral ++ '\x7d' :: rest := by
  constructor
  · intro h
    obtain ⟨numeral, hnumeral, hspan, hs⟩ := exists_append_spanDigits s
    unfold slotAfterBrace at h
    split at h
    · next d ds rest' heq =>
      cases h
      rw [heq] at hspan hs
      refine ⟨numeral, ⟨?_, hnumeral⟩, hspan, hs⟩
      rintro rfl
      cases hspan
    · cases h
  · rintro ⟨numeral, ⟨hne, hnumeral⟩, rfl, rfl⟩
    have hlength := length_filterMap_digits hnumeral
    rw [slotAfterBrace, spanDigits_append hnumeral digitValue?_close]
    rcases hdigits : numeral.filterMap Text.digitValue? with _ | ⟨d, ds⟩
    · rw [hdigits] at hlength
      exact absurd (List.length_eq_zero_iff.1 hlength.symm) hne
    · rfl

lemma pieces_placeholder (h : IsNumeral numeral) (rest : List Char) :
    pieces (placeholder numeral ++ rest) =
      .slot (valueOf numeral) numeral.length :: pieces rest := by
  have hslot : slotAfterBrace (numeral ++ ['\x7d'] ++ rest) =
      some (numeral.filterMap Text.digitValue?, rest) :=
    slotAfterBrace_eq_some_iff.2 ⟨numeral, h, rfl, by simp⟩
  rw [placeholder, List.cons_append, pieces, if_pos rfl]
  split
  · next digits after heq =>
    rw [hslot] at heq
    cases heq
    rw [valueOf, length_filterMap_digits h.2]
  · next heq =>
    rw [hslot] at heq
    cases heq

/-- A character that opens no placeholder stands for itself. -/
lemma pieces_cons (h : ∀ numeral, IsNumeral numeral → ¬placeholder numeral <+: c :: rest) :
    pieces (c :: rest) = .char c :: pieces rest := by
  rw [pieces]
  split
  · next hc =>
    subst hc
    split
    · next digits after heq =>
      obtain ⟨numeral, hnumeral, -, rfl⟩ := slotAfterBrace_eq_some_iff.1 heq
      exact absurd ⟨after, by simp [placeholder]⟩ (h numeral hnumeral)
    · rfl
  · rfl

end Reading

/-! ### Placeholders do not overlap -/

section Overlap

variable {numeral other s rest : List Char} {c : Char}

lemma IsNumeral.open_not_mem (h : IsNumeral numeral) : '\x7b' ∉ numeral ++ ['\x7d'] := by
  intro hmem
  rcases List.mem_append.1 hmem with hopen | hclose
  · obtain ⟨d, hd⟩ := h.2 _ hopen
    rw [digitValue?_open] at hd
    cases hd
  · exact absurd (List.mem_singleton.1 hclose) (by decide)

lemma IsNumeral.close_not_mem (h : IsNumeral numeral) : '\x7d' ∉ numeral := by
  intro hmem
  obtain ⟨d, hd⟩ := h.2 _ hmem
  rw [digitValue?_close] at hd
  cases hd

/-- A placeholder does not reach over an opening brace. -/
lemma IsNumeral.prefix_of_prefix_append (h : IsNumeral numeral)
    (hrest : rest = [] ∨ ∃ more, rest = '\x7b' :: more)
    (hbegins : placeholder numeral <+: c :: s ++ rest) : placeholder numeral <+: c :: s := by
  obtain ⟨more, hmore⟩ := hbegins
  rcases List.append_eq_append_iff.1 hmore with ⟨a, hs, -⟩ | ⟨a, hs, ha⟩
  · exact ⟨a, hs.symm⟩
  · cases a with
    | nil => exact ⟨[], by simpa using hs⟩
    | cons b a =>
      -- the opening brace behind the text would stand between those of the placeholder
      have hb : b = '\x7b' := by
        rcases hrest with rfl | ⟨more', rfl⟩
        · cases ha
        · exact (List.cons_eq_cons.1 ha).1.symm
      have htail : numeral ++ ['\x7d'] = s ++ b :: a := (List.cons_eq_cons.1 hs).2
      refine absurd ?_ h.open_not_mem
      rw [htail, hb]
      simp

lemma hasPlaceholder_cons : HasPlaceholder (c :: s) ↔
    (∃ numeral, IsNumeral numeral ∧ placeholder numeral <+: c :: s) ∨ HasPlaceholder s := by
  simp only [HasPlaceholder, List.infix_cons_iff, and_or_left, exists_or]

/-- In a text that has no placeholder none begins, whatever follows from the next opening brace
on. -/
lemma not_prefix_of_not_hasPlaceholder (h : ¬HasPlaceholder (c :: s))
    (hrest : rest = [] ∨ ∃ more, rest = '\x7b' :: more) (hnumeral : IsNumeral numeral) :
    ¬placeholder numeral <+: c :: s ++ rest :=
  fun hbegins => h (hasPlaceholder_cons.2
    (.inl ⟨numeral, hnumeral, hnumeral.prefix_of_prefix_append hrest hbegins⟩))

lemma pieces_append (h : ¬HasPlaceholder s) (hrest : rest = [] ∨ ∃ more, rest = '\x7b' :: more) :
    pieces (s ++ rest) = s.map .char ++ pieces rest := by
  induction s with
  | nil => rfl
  | cons c s ih =>
    have htail : ¬HasPlaceholder s := fun hs => h (hasPlaceholder_cons.2 (.inr hs))
    rw [List.cons_append, pieces_cons, ih htail, List.map_cons, List.cons_append]
    exact fun numeral hnumeral => not_prefix_of_not_hasPlaceholder h hrest hnumeral

/-- A placeholder does not begin in a text that has none. -/
lemma infix_of_infix_append (h : ¬HasPlaceholder s)
    (hrest : rest = [] ∨ ∃ more, rest = '\x7b' :: more) (hnumeral : IsNumeral numeral)
    (hoccurs : placeholder numeral <:+: s ++ rest) : placeholder numeral <:+: rest := by
  induction s with
  | nil => exact hoccurs
  | cons c s ih =>
    have htail : ¬HasPlaceholder s := fun hs => h (hasPlaceholder_cons.2 (.inr hs))
    rcases List.infix_cons_iff.1 hoccurs with hbegins | hoccurs
    · exact absurd hbegins (not_prefix_of_not_hasPlaceholder h hrest hnumeral)
    · exact ih htail hoccurs

/-- A placeholder does not begin inside another one. -/
lemma eq_or_infix_of_infix_placeholder (hnumeral : IsNumeral numeral) (hother : IsNumeral other)
    (hoccurs : placeholder numeral <:+: placeholder other ++ rest) :
    numeral = other ∨ placeholder numeral <:+: rest := by
  have hskip : ∀ s : List Char, '\x7b' ∉ s → placeholder numeral <:+: s ++ rest →
      placeholder numeral <:+: rest := by
    intro s hs hoccurs
    induction s with
    | nil => exact hoccurs
    | cons c s ih =>
      rw [List.mem_cons, not_or] at hs
      rcases List.infix_cons_iff.1 hoccurs with ⟨more, hmore⟩ | hoccurs
      · exact absurd (List.cons_eq_cons.1 hmore).1 hs.1
      · exact ih hs.2 hoccurs
  rcases List.infix_cons_iff.1 hoccurs with ⟨more, hmore⟩ | hoccurs
  · have htail : numeral ++ '\x7d' :: more = other ++ '\x7d' :: rest := by
      simpa [placeholder] using hmore
    have hread : ∀ (n t : List Char), IsNumeral n →
        (n ++ '\x7d' :: t).takeWhile (· ≠ '\x7d') = n := by
      intro n t hn
      rw [List.takeWhile_append_of_pos]
      · simp
      · rintro c hc
        simpa using ne_of_mem_of_not_mem hc hn.close_not_mem
    rw [← hread numeral more hnumeral, htail, hread other rest hother]
    exact .inl rfl
  · exact .inr (hskip _ hother.open_not_mem hoccurs)

end Overlap

/-! ### Every template has a cut, which the reader finds -/

namespace Cut

variable {cut : Cut} {s : List Char} {gaps : List Gap}

lemma sourceOf_cons (g : Gap) (gaps : List Gap) :
    sourceOf (g :: gaps) = placeholder g.numeral ++ (g.tail ++ sourceOf gaps) := by
  simp [sourceOf]

lemma sourceOf_opens (gaps : List Gap) :
    sourceOf gaps = [] ∨ ∃ more, sourceOf gaps = '\x7b' :: more := by
  cases gaps with
  | nil => exact .inl rfl
  | cons g gaps => exact .inr ⟨_, rfl⟩

/-- The reader finds the placeholders of a cut. -/
lemma IsCutOf.pieces_eq (h : cut.IsCutOf s) : Template.pieces s = cut.pieces := by
  obtain ⟨head, gaps⟩ := cut
  have hgaps : Template.pieces (sourceOf gaps) =
      gaps.flatMap (fun g => .slot g.index g.numeral.length :: g.tail.map .char) := by
    have hnumerals := h.isNumeral
    have htails := h.tail
    clear h
    induction gaps with
    | nil => rw [sourceOf, List.flatMap_nil, Template.pieces, List.flatMap_nil]
    | cons g gaps ih =>
      obtain ⟨hnumeral, hnumerals⟩ := List.forall_mem_cons.1 hnumerals
      obtain ⟨htail, htails⟩ := List.forall_mem_cons.1 htails
      rw [sourceOf_cons, pieces_placeholder hnumeral, pieces_append htail (sourceOf_opens gaps),
        ih hnumerals htails, List.flatMap_cons]
      rfl
  rw [← h.source_eq, source, pieces_append h.head (sourceOf_opens gaps), hgaps, pieces]

/-- Every placeholder of a template is one of its cut. -/
lemma IsCutOf.exists_gap (h : cut.IsCutOf s) {numeral : List Char} (hnumeral : IsNumeral numeral)
    (hoccurs : placeholder numeral <:+: s) : ∃ g ∈ cut.gaps, g.numeral = numeral := by
  obtain ⟨head, gaps⟩ := cut
  rw [← h.source_eq, source] at hoccurs
  have hnumerals : ∀ g ∈ gaps, IsNumeral g.numeral := h.isNumeral
  have htails : ∀ g ∈ gaps, ¬HasPlaceholder g.tail := h.tail
  replace hoccurs : placeholder numeral <:+: sourceOf gaps :=
    infix_of_infix_append h.head (sourceOf_opens gaps) hnumeral hoccurs
  show ∃ g ∈ gaps, g.numeral = numeral
  clear h
  induction gaps with
  | nil => cases List.infix_nil.1 hoccurs
  | cons g gaps ih =>
    obtain ⟨hother, hnumerals⟩ := List.forall_mem_cons.1 hnumerals
    obtain ⟨htail, htails⟩ := List.forall_mem_cons.1 htails
    rw [sourceOf_cons] at hoccurs
    rcases eq_or_infix_of_infix_placeholder hnumeral hother hoccurs with rfl | hoccurs
    · exact ⟨g, List.mem_cons_self, rfl⟩
    · obtain ⟨g', hg', heq⟩ := ih hnumerals htails
        (infix_of_infix_append htail (sourceOf_opens gaps) hnumeral hoccurs)
      exact ⟨g', List.mem_cons_of_mem _ hg', heq⟩

lemma IsCutOf.infix_of_mem (h : cut.IsCutOf s) {g : Gap} (hg : g ∈ cut.gaps) :
    placeholder g.numeral <:+: s := by
  obtain ⟨before, after, hgaps⟩ := List.append_of_mem hg
  refine ⟨cut.head ++ sourceOf before, g.tail ++ sourceOf after, ?_⟩
  rw [← h.source_eq, source, hgaps]
  simp [sourceOf]

/-- **Every template has a cut.** -/
theorem exists_isCutOf (s : List Char) : ∃ cut : Cut, cut.IsCutOf s := by
  induction hn : s.length using Nat.strongRecOn generalizing s with
  | _ n ih =>
    cases s with
    | nil =>
      refine ⟨⟨[], []⟩, rfl, (fun g hg => nomatch hg), ?_, (fun g hg => nomatch hg)⟩
      rintro ⟨numeral, -, hoccurs⟩
      cases List.infix_nil.1 hoccurs
    | cons c s =>
      by_cases hopens : ∃ numeral, IsNumeral numeral ∧ placeholder numeral <+: c :: s
      · obtain ⟨numeral, hnumeral, rest, hrest⟩ := hopens
        have hlt : rest.length < n := by
          rw [← hn, ← hrest, placeholder]
          simp
          omega
        obtain ⟨⟨head, gaps⟩, hcut⟩ := ih rest.length hlt rest rfl
        refine ⟨⟨[], ⟨numeral, head⟩ :: gaps⟩, ?_, ?_, ?_, ?_⟩
        · rw [← hrest, ← hcut.source_eq]
          simp [source, sourceOf]
        · exact List.forall_mem_cons.2 ⟨hnumeral, hcut.isNumeral⟩
        · rintro ⟨numeral, -, hoccurs⟩
          cases List.infix_nil.1 hoccurs
        · exact List.forall_mem_cons.2 ⟨hcut.head, hcut.tail⟩
      · obtain ⟨⟨head, gaps⟩, hcut⟩ := ih s.length (by rw [← hn]; simp) s rfl
        refine ⟨⟨c :: head, gaps⟩, ?_, hcut.isNumeral, ?_, hcut.tail⟩
        · rw [← hcut.source_eq]
          rfl
        · rw [hasPlaceholder_cons, not_or]
          refine ⟨?_, hcut.head⟩
          rintro ⟨numeral, hnumeral, hbegins⟩
          refine hopens ⟨numeral, hnumeral, hbegins.trans ⟨sourceOf gaps, ?_⟩⟩
          rw [← hcut.source_eq]
          rfl

end Cut

end Template

end TreeLint
