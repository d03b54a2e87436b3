/-
What a template makes of its arguments.

Everything that is asked of a template is told of its cut at the placeholders.  The
message is the texts between them, with the text of an argument in each gap; a numeral
that is too long, or an argument without a text, ends it (`DiagnosticKind.format_eq_ok`,
`DiagnosticKind.format_eq_error`).  The number of arguments is the least that leaves no gap
empty (`Template.Cut.isLeast_arity`), and a template is well formed if it uses each of them
(`Template.isWellFormed_iff`).  `DiagnosticKind.format_law` puts this together.
-/
import Mathlib.Data.List.Sort
import Mathlib.Order.Bounds.Basic
import TreeLint.Proofs.Diagnostic.Placeholder
import TreeLint.Proofs.Rule.Acceptance
import TreeLint.Proofs.Value.Telling
namespace TreeLint

namespace Template

/-! ### The indexes of a template -/

section Indexes

variable {ps : List TemplatePiece} {i j n : Nat} {is : List Nat}

lemma mem_insertIndex : j ∈ insertIndex i is ↔ j = i ∨ j ∈ is := by
  induction is with
  | nil => simp [insertIndex]
  | cons k rest ih =>
    rw [insertIndex]
    split_ifs with hlt heq
    · simp
    · simp [heq]
    · rw [List.mem_cons, ih, List.mem_cons, or_left_comm]

lemma pairwise_insertIndex (h : is.Pairwise (· < ·)) : (insertIndex i is).Pairwise (· < ·) := by
  induction is with
  | nil => simp [insertIndex]
  | cons k rest ih =>
    obtain ⟨hfirst, hrest⟩ := List.pairwise_cons.1 h
    rw [insertIndex]
    split_ifs with hlt heq
    · refine List.pairwise_cons.2 ⟨List.forall_mem_cons.2 ⟨hlt, fun j hj => ?_⟩, h⟩
      exact hlt.trans (hfirst j hj)
    · exact h
    · refine List.pairwise_cons.2 ⟨fun j hj => ?_, ih hrest⟩
      rcases mem_insertIndex.1 hj with rfl | hj
      · omega
      · exact hfirst j hj

lemma pairwise_indexes (ps : List TemplatePiece) : (indexes ps).Pairwise (· < ·) := by
  rw [indexes]
  induction ps.filterMap slotIndex? with
  | nil => exact .nil
  | cons i rest ih => exact pairwise_insertIndex ih

lemma mem_indexes_iff : i ∈ indexes ps ↔ ∃ width, .slot i width ∈ ps := by
  have hmem : i ∈ indexes ps ↔ i ∈ ps.filterMap slotIndex? := by
    rw [indexes]
    induction ps.filterMap slotIndex? with
    | nil => rfl
    | cons j rest ih => rw [List.foldr_cons, mem_insertIndex, ih, List.mem_cons]
  rw [hmem, List.mem_filterMap]
  constructor
  · rintro ⟨piece, hpiece, hindex⟩
    cases piece with
    | char c => cases hindex
    | slot j width =>
      cases hindex
      exact ⟨width, hpiece⟩
  · rintro ⟨width, hpiece⟩
    exact ⟨_, hpiece, rfl⟩

/-- The number of arguments is the least bound of the indexes. -/
lemma arity_le_iff : arity ps ≤ n ↔ ∀ i ∈ indexes ps, i < n := by
  have hsorted := pairwise_indexes ps
  unfold arity
  rcases List.eq_nil_or_concat (indexes ps) with hnil | ⟨init, last, hlast⟩
  · simp [hnil]
  · rw [hlast, List.concat_eq_append] at hsorted ⊢
    rw [List.getLast?_concat]
    show last + 1 ≤ n ↔ _
    constructor
    · intro hle i hi
      rcases List.mem_append.1 hi with hi | hi
      · have hlt := (List.pairwise_append.1 hsorted).2.2 i hi last (List.mem_singleton.2 rfl)
        omega
      · rw [List.mem_singleton.1 hi]
        omega
    · intro hall
      exact hall last (List.mem_append_right _ (List.mem_singleton.2 rfl))

lemma countsFrom_iff : countsFrom n is = true ↔ is = List.range' n is.length := by
  induction is generalizing n with
  | nil => simp [countsFrom]
  | cons i rest ih => simp [countsFrom, ih, List.range'_succ]

/-- No index is left out exactly if every index below the number of arguments is used. -/
lemma isWellFormed_iff : isWellFormed ps = true ↔ ∀ i < arity ps, i ∈ indexes ps := by
  have hbound : ∀ i ∈ indexes ps, i < arity ps := arity_le_iff.1 le_rfl
  rw [isWellFormed, countsFrom_iff]
  constructor
  · intro hrange i hi
    have hall : ∀ j ∈ indexes ps, j < (indexes ps).length := by
      intro j hj
      rw [hrange] at hj
      simpa using hj
    have hle := arity_le_iff.2 hall
    rw [hrange, List.mem_range'_1]
    omega
  · intro hall
    have hmem : ∀ i, i ∈ indexes ps ↔ i ∈ List.range' 0 (arity ps) := by
      intro i
      rw [List.mem_range'_1]
      exact ⟨fun hi => ⟨Nat.zero_le i, by simpa using hbound i hi⟩,
        fun hi => hall i (by simpa using hi.2)⟩
    have heq : indexes ps = List.range' 0 (arity ps) :=
      (pairwise_indexes ps).eq_of_mem_iff (List.pairwise_lt_range' 1 Nat.one_pos) hmem
    rw [heq, List.length_range']

end Indexes

/-! ### What a cut tells -/

section Told

variable {cut : Cut} {ps : List TemplatePiece} {i width limit : Nat}

lemma Cut.slot_mem_pieces : .slot i width ∈ cut.pieces ↔
    ∃ g ∈ cut.gaps, g.index = i ∧ g.numeral.length = width := by
  simp only [pieces, List.mem_append, List.mem_map, List.mem_flatMap, List.mem_cons, reduceCtorEq,
    and_false, exists_false, or_false, false_or, TemplatePiece.slot.injEq]
  simp only [eq_comm]

lemma Cut.mem_indexes_pieces : i ∈ indexes cut.pieces ↔ cut.Uses i := by
  rw [mem_indexes_iff, Uses]
  simp only [slot_mem_pieces]
  constructor
  · rintro ⟨width, g, hg, hindex, -⟩
    exact ⟨g, hg, hindex⟩
  · rintro ⟨g, hg, hindex⟩
    exact ⟨_, g, hg, hindex, rfl⟩

lemma tooLong?_eq_none_iff :
    tooLong? limit ps = none ↔ ∀ i width, .slot i width ∈ ps → width ≤ limit := by
  rw [tooLong?, List.findSome?_eq_none_iff]
  constructor
  · intro h i width hslot
    have hnone := h _ hslot
    rw [tooLongSlot?] at hnone
    split at hnone
    · cases hnone
    · next hle => exact Nat.le_of_not_lt hle
  · intro h piece hpiece
    cases piece with
    | char c => rfl
    | slot i width => rw [tooLongSlot?, if_neg (Nat.not_lt.2 (h i width hpiece))]

/-- All indexes can be read if no numeral has too many digits. -/
lemma Cut.tooLong?_pieces_eq_none_iff :
    tooLong? limit cut.pieces = none ↔ ∀ g ∈ cut.gaps, g.numeral.length ≤ limit := by
  rw [tooLong?_eq_none_iff]
  simp only [slot_mem_pieces]
  constructor
  · exact fun h g hg => h _ _ ⟨g, hg, rfl, rfl⟩
  · rintro h i width ⟨g, hg, -, rfl⟩
    exact h g hg

/-- The pieces of a cut template up to one of its gaps, and those behind it. -/
lemma Cut.pieces_eq_append {before after : List Gap} {g : Gap}
    (hgaps : cut.gaps = before ++ g :: after) :
    cut.pieces = (Cut.mk cut.head before).pieces ++
      .slot g.index g.numeral.length :: (Cut.mk g.tail after).pieces := by
  simp [pieces, hgaps]

/-- Of several numerals with too many digits the first is found. -/
lemma Cut.tooLong?_pieces_eq_some {before after : List Gap} {g : Gap}
    (hgaps : cut.gaps = before ++ g :: after) (hbefore : ∀ b ∈ before, b.numeral.length ≤ limit)
    (hlong : limit < g.numeral.length) : tooLong? limit cut.pieces = some g.numeral.length := by
  have hnone : tooLong? limit (Cut.mk cut.head before).pieces = none :=
    tooLong?_pieces_eq_none_iff.2 hbefore
  rw [tooLong?] at hnone ⊢
  rw [pieces_eq_append hgaps, List.findSome?_append, hnone, Option.none_or,
    List.findSome?_cons_of_isSome (by simp [tooLongSlot?, hlong])]
  simp [tooLongSlot?, hlong]

/-- The text that stands for a piece when every slot has one. -/
def pieceText (texts : Nat → String) : TemplatePiece → String
  | .char c => c.toString
  | .slot i _ => texts i

/-- Characters stand for themselves in a message. -/
lemma flatMap_pieceText_char (texts : Nat → String) (s : List Char) :
    (s.map TemplatePiece.char).flatMap (fun p => (pieceText texts p).toList) = s := by
  induction s with
  | nil => rfl
  | cons c s ih =>
    rw [List.map_cons, List.flatMap_cons, ih, pieceText, Char.toString, String.toList_singleton]
    rfl

/-- The message is what the texts make of the cut template. -/
lemma Cut.join_pieces (cut : Cut) (texts : Nat → String) :
    String.join (cut.pieces.map (pieceText texts)) = String.ofList (cut.filled texts) := by
  rw [← String.toList_inj, String.toList_ofList, String.toList_join, List.flatMap_map,
    pieces, filled, List.flatMap_append, flatMap_pieceText_char, List.flatMap_assoc]
  congr 1
  refine List.flatMap_congr fun g _ => ?_
  rw [List.flatMap_cons, flatMap_pieceText_char]
  rfl

/-- The number of arguments is the least with which, and with more, no gap is empty. -/
lemma Cut.isLeast_arity (cut : Cut) :
    IsLeast {n | ∀ arguments : List Value, n ≤ arguments.length → ¬cut.Lacks arguments.length}
      (arity cut.pieces) := by
  have hlacks : ∀ n, (∀ arguments : List Value, n ≤ arguments.length →
      ¬cut.Lacks arguments.length) ↔ arity cut.pieces ≤ n := by
    intro n
    simp only [arity_le_iff, mem_indexes_pieces, Lacks, Uses]
    constructor
    · rintro h i ⟨g, hg, rfl⟩
      by_contra hle
      have hlength : (List.replicate n Value.null).length = n := List.length_replicate
      exact h (List.replicate n .null) hlength.ge ⟨g, hg, by omega⟩
    · rintro h arguments hcount ⟨g, hg, hle⟩
      have hlt := h _ ⟨g, hg, rfl⟩
      omega
  exact ⟨(hlacks _).2 le_rfl, fun n hn => (hlacks n).1 hn⟩

end Told

/-! ### What goes into a gap -/

section Gaps

variable [Machine] {arguments : List Value} {g : Gap}

/-- The text that goes into a gap: that of the argument with its index, or the marker if that
argument was not given. -/
inductive Gap.Takes (arguments : List Value) (g : Gap) : String → Prop
  /-- The text of an argument. -/
  | argument {v : Value} {s : String} : g.numeral.length ≤ Value.digitLimit →
      arguments[g.index]? = some v → v.text = .ok s → g.Takes arguments s
  /-- The marker. -/
  | marker : g.numeral.length ≤ Value.digitLimit → arguments.length ≤ g.index →
      g.Takes arguments missingArgument

/-- The fault of a gap into which nothing can go. -/
inductive Gap.Fails (arguments : List Value) (g : Gap) : Fault → Prop
  /-- The numeral has too many digits. -/
  | unreadable : Value.digitLimit < g.numeral.length →
      g.Fails arguments (.longNumeral g.numeral.length)
  /-- The argument has no text. -/
  | untold {v : Value} {why : TextFault} : g.numeral.length ≤ Value.digitLimit →
      arguments[g.index]? = some v → v.text = .error why → g.Fails arguments (.text why)

lemma Gap.Takes.fillPiece_eq {s : String} (h : g.Takes arguments s) :
    DiagnosticKind.fillPiece arguments (.slot g.index g.numeral.length) = .ok s := by
  cases h with
  | argument hread hgiven htext =>
    simp only [DiagnosticKind.fillPiece, if_neg (Nat.not_lt.2 hread), hgiven, htext, Fault.told_ok]
  | marker hread hmissing =>
    simp only [DiagnosticKind.fillPiece, if_neg (Nat.not_lt.2 hread),
      List.getElem?_eq_none hmissing]

lemma Gap.Fails.fillPiece_eq {f : Fault} (h : g.Fails arguments f) :
    DiagnosticKind.fillPiece arguments (.slot g.index g.numeral.length) = .error f := by
  cases h with
  | unreadable hlong => simp only [DiagnosticKind.fillPiece, if_pos hlong]
  | untold hread hgiven htext =>
    simp only [DiagnosticKind.fillPiece, if_neg (Nat.not_lt.2 hread), hgiven, htext,
      Fault.told_error]

/-- The text for an index that is read, if it has one. -/
def textFor (arguments : List Value) (i : Nat) : String :=
  match arguments[i]? with
  | some v => v.text.toOption.getD ""
  | none => missingArgument

lemma Gap.Takes.textFor_eq {s : String} (h : g.Takes arguments s) :
    textFor arguments g.index = s := by
  cases h with
  | argument _ hgiven htext => simp [textFor, hgiven, htext, Except.toOption]
  | marker _ hmissing => simp [textFor, List.getElem?_eq_none hmissing]

/-- Something goes into a gap, or it fails. -/
lemma Gap.takes_or_fails (arguments : List Value) (g : Gap) :
    (∃ s, g.Takes arguments s) ∨ ∃ f, g.Fails arguments f := by
  rcases Nat.lt_or_ge Value.digitLimit g.numeral.length with hlong | hread
  · exact .inr ⟨_, .unreadable hlong⟩
  · rcases hgiven : arguments[g.index]? with _ | v
    · exact .inl ⟨_, .marker hread (List.getElem?_eq_none_iff.1 hgiven)⟩
    · rcases htext : v.text with why | s
      · exact .inr ⟨_, .untold hread hgiven htext⟩
      · exact .inl ⟨s, .argument hread hgiven htext⟩

/-- Something goes into each gap, or there is a first that fails. -/
lemma takes_or_first_fails (arguments : List Value) (gaps : List Gap) :
    (∀ g ∈ gaps, ∃ s, g.Takes arguments s) ∨ ∃ before g after f, gaps = before ++ g :: after ∧
      (∀ b ∈ before, ∃ s, b.Takes arguments s) ∧ g.Fails arguments f := by
  induction gaps with
  | nil => exact .inl (by simp)
  | cons g gaps ih =>
    rcases g.takes_or_fails arguments with htakes | ⟨f, hfails⟩
    · rcases ih with hall | ⟨before, g', after, f, rfl, hbefore, hfails⟩
      · exact .inl (List.forall_mem_cons.2 ⟨htakes, hall⟩)
      · exact .inr ⟨g :: before, g', after, f, rfl,
          List.forall_mem_cons.2 ⟨htakes, hbefore⟩, hfails⟩
    · exact .inr ⟨[], g, gaps, f, rfl, by simp, hfails⟩

end Gaps

end Template

/-! ### Messages -/

namespace DiagnosticKind

section Law

section Pieces

variable [Machine] {arguments : List Value} {ps qs : List TemplatePiece} {p : TemplatePiece}
  {text : TemplatePiece → String} {f : Fault}

lemma fillPieces_eq_ok (h : ∀ p ∈ ps, fillPiece arguments p = .ok (text p)) :
    fillPieces arguments ps = .ok (ps.map text) := by
  induction ps with
  | nil => rfl
  | cons p ps ih =>
    obtain ⟨hfirst, hrest⟩ := List.forall_mem_cons.1 h
    rw [fillPieces, hfirst, ih hrest]
    rfl

/-- The first piece that fails ends the message. -/
lemma fillPieces_eq_error (hps : ∀ p ∈ ps, ∃ s, fillPiece arguments p = .ok s)
    (hp : fillPiece arguments p = .error f) :
    fillPieces arguments (ps ++ p :: qs) = .error f := by
  induction ps with
  | nil =>
    rw [List.nil_append, fillPieces, hp]
    rfl
  | cons first ps ih =>
    obtain ⟨⟨s, hfirst⟩, hrest⟩ := List.forall_mem_cons.1 hps
    rw [List.cons_append, fillPieces, hfirst, ih hrest]
    rfl

end Pieces

variable {code : DiagnosticKind} {cut : Template.Cut}

lemma withPieces_of_isCutOf (hcut : cut.IsCutOf code.template.toList)
    (hread : ∀ g ∈ cut.gaps, g.numeral.length ≤ Value.digitLimit) {α : Type}
    (next : List TemplatePiece → Except Fault α) : code.withPieces next = next cut.pieces := by
  have hpieces : code.pieces = cut.pieces := hcut.pieces_eq
  rw [code.withPieces_of_none, hpieces]
  rw [hpieces]
  exact Template.Cut.tooLong?_pieces_eq_none_iff.2 hread

/-- The first numeral with too many digits is a fault, whatever is asked of the indexes. -/
lemma withPieces_eq_error (hcut : cut.IsCutOf code.template.toList)
    {before after : List Template.Gap} {g : Template.Gap} (hgaps : cut.gaps = before ++ g :: after)
    (hbefore : ∀ b ∈ before, b.numeral.length ≤ Value.digitLimit)
    (hlong : Value.digitLimit < g.numeral.length) {α : Type}
    (next : List TemplatePiece → Except Fault α) :
    code.withPieces next = .error (.longNumeral g.numeral.length) := by
  have hpieces : code.pieces = cut.pieces := hcut.pieces_eq
  refine code.withPieces_of_some ?_ next
  rw [hpieces]
  exact Template.Cut.tooLong?_pieces_eq_some hgaps hbefore hlong

variable [Machine] {arguments : List Value}

lemma isWellFormed_eq (hcut : cut.IsCutOf code.template.toList)
    (hread : ∀ g ∈ cut.gaps, g.numeral.length ≤ Value.digitLimit)
    (hleft : ∃ i < Template.arity cut.pieces, ¬cut.Uses i) :
    code.isWellFormed =
      if countLimit < Template.arity cut.pieces then .error .overflow
      else if Machine.listLimit < Template.arity cut.pieces then .error .outOfMemory
      else .ok false := by
  rw [isWellFormed, withPieces_of_isCutOf hcut hread, if_neg]
  rw [Template.isWellFormed_iff]
  simp only [Template.Cut.mem_indexes_pieces]
  push Not
  exact hleft

lemma isWellFormed_eq_true_iff (hcut : cut.IsCutOf code.template.toList)
    (hread : ∀ g ∈ cut.gaps, g.numeral.length ≤ Value.digitLimit) :
    code.isWellFormed = .ok true ↔ ∀ i < Template.arity cut.pieces, cut.Uses i := by
  simp only [← Template.Cut.mem_indexes_pieces, ← Template.isWellFormed_iff]
  rw [isWellFormed, withPieces_of_isCutOf hcut hread]
  split_ifs with hform <;> simp [hform]

/-- The template of a kind that is accepted in a rule set can be read and uses each argument. -/
lemma uses_of_isWellFormed (hcut : cut.IsCutOf code.template.toList)
    (hform : code.isWellFormed = .ok true) :
    (∀ g ∈ cut.gaps, g.numeral.length ≤ Value.digitLimit) ∧
      ∀ i < Template.arity cut.pieces, cut.Uses i := by
  rcases hlong : Template.tooLong? Value.digitLimit code.pieces with _ | width
  · have hpieces : code.pieces = cut.pieces := hcut.pieces_eq
    rw [hpieces] at hlong
    have hread := Template.Cut.tooLong?_pieces_eq_none_iff.1 hlong
    exact ⟨hread, (isWellFormed_eq_true_iff hcut hread).1 hform⟩
  · rw [isWellFormed, code.withPieces_of_some hlong] at hform
    cases hform

/-- If something goes into each gap, the message is the template with it. -/
lemma format_eq_ok (hcut : cut.IsCutOf code.template.toList) {texts : Nat → String}
    (htexts : ∀ g ∈ cut.gaps, g.Takes arguments (texts g.index)) :
    code.format arguments = .ok (String.ofList (cut.filled texts)) := by
  have hfill : ∀ p ∈ code.pieces, fillPiece arguments p = .ok (Template.pieceText texts p) := by
    have hpieces : code.pieces = cut.pieces := hcut.pieces_eq
    intro p hp
    rw [hpieces] at hp
    cases p with
    | char c => rfl
    | slot i width =>
      obtain ⟨g, hg, rfl, rfl⟩ := Template.Cut.slot_mem_pieces.1 hp
      exact (htexts g hg).fillPiece_eq
  have hpieces : code.pieces = cut.pieces := hcut.pieces_eq
  rw [format, fillPieces_eq_ok hfill, hpieces, ← cut.join_pieces]
  rfl

/-- The first gap that fails ends the message. -/
lemma format_eq_error (hcut : cut.IsCutOf code.template.toList)
    {before after : List Template.Gap} {g : Template.Gap} {f : Fault}
    (hgaps : cut.gaps = before ++ g :: after)
    (hbefore : ∀ b ∈ before, ∃ s, b.Takes arguments s) (hfails : g.Fails arguments f) :
    code.format arguments = .error f := by
  have hpieces : code.pieces = cut.pieces := hcut.pieces_eq
  have hfill : ∀ p ∈ (Template.Cut.mk cut.head before).pieces,
      ∃ s, fillPiece arguments p = .ok s := by
    intro p hp
    cases p with
    | char c => exact ⟨_, rfl⟩
    | slot i width =>
      obtain ⟨b, hb, rfl, rfl⟩ := Template.Cut.slot_mem_pieces.1 hp
      obtain ⟨s, hs⟩ := hbefore b hb
      exact ⟨s, hs.fillPiece_eq⟩
  rw [format, hpieces, Template.Cut.pieces_eq_append hgaps,
    fillPieces_eq_error hfill hfails.fillPiece_eq]
  rfl

/-- A message that is made has a text in each gap. -/
lemma takes_of_format_eq_ok (hcut : cut.IsCutOf code.template.toList) {message : String}
    (h : code.format arguments = .ok message) : ∀ g ∈ cut.gaps, ∃ s, g.Takes arguments s := by
  rcases Template.takes_or_first_fails arguments cut.gaps with
    hall | ⟨before, g, after, f, hgaps, hbefore, hfails⟩
  · exact hall
  · rw [format_eq_error hcut hgaps hbefore hfails] at h
    cases h

/-- A message is made exactly if there is a text for each gap. -/
lemma exists_format_iff (hcut : cut.IsCutOf code.template.toList) :
    (∃ message, code.format arguments = .ok message) ↔
      ∀ g ∈ cut.gaps, ∃ s, g.Takes arguments s := by
  constructor
  · rintro ⟨message, hmessage⟩
    exact takes_of_format_eq_ok hcut hmessage
  · intro hall
    have htexts : ∀ g ∈ cut.gaps, g.Takes arguments (Template.textFor arguments g.index) := by
      intro g hg
      obtain ⟨s, hs⟩ := hall g hg
      rwa [hs.textFor_eq]
    exact ⟨_, format_eq_ok hcut htexts⟩

/-- If the template can be read, and every argument has a text, a message is made. -/
lemma exists_format_of_texts {n : Nat} (harity : code.arity = .ok n)
    (htexts : ∀ v ∈ arguments, ∃ s, v.text = .ok s) :
    ∃ message, code.format arguments = .ok message := by
  obtain ⟨cut, hcut⟩ := Template.Cut.exists_isCutOf code.template.toList
  rcases Template.takes_or_first_fails arguments cut.gaps with
    hall | ⟨before, g, after, f, hgaps, hbefore, hfails⟩
  · exact (exists_format_iff hcut).2 hall
  · have hread : ∀ b ∈ before, b.numeral.length ≤ Value.digitLimit := by
      intro b hb
      obtain ⟨s, hs⟩ := hbefore b hb
      cases hs with
      | argument hread => exact hread
      | marker hread => exact hread
    cases hfails with
    | unreadable hlong =>
      rw [arity, withPieces_eq_error hcut hgaps hread hlong] at harity
      cases harity
    | untold _ hgiven htext =>
      obtain ⟨s, hs⟩ := htexts _ (List.mem_of_getElem? hgiven)
      rw [htext] at hs
      cases hs

/-- **Messages.**  A template can be cut at its placeholders, so that none is left in the texts
between them.  The message is these texts, with the text of an argument in each gap, or the marker
where none was given; the first gap whose numeral has too many digits, or whose argument has no
text, is the fault of the message.  If a numeral has too many digits, nothing else can be told of
the template.  Otherwise the number of expected arguments is the least with which, and with more, no
marker is put in, and the template is well formed if each of these arguments is used.  If one is
left out, it is not well formed, unless so many are expected that they cannot be counted or do not
fit into the memory, which is a fault.

So with a kind that is accepted in a rule set, as many arguments as expected are all used and leave
no marker, and fewer leave one. -/
theorem format_law (code : DiagnosticKind) :
    (∃ cut : Template.Cut, cut.IsCutOf code.template.toList) ∧
    ∀ cut : Template.Cut, cut.IsCutOf code.template.toList →
      (∀ numeral, Template.IsNumeral numeral →
        (Template.placeholder numeral <:+: code.template.toList ↔
          ∃ g ∈ cut.gaps, g.numeral = numeral)) ∧
      (∀ arguments : List Value,
        (∀ texts : Nat → String, (∀ g ∈ cut.gaps, g.Takes arguments (texts g.index)) →
          code.format arguments = .ok (String.ofList (cut.filled texts))) ∧
        (∀ before g after f, cut.gaps = before ++ g :: after →
          (∀ b ∈ before, ∃ s, b.Takes arguments s) → g.Fails arguments f →
          code.format arguments = .error f) ∧
        ((∃ message, code.format arguments = .ok message) ↔
          ∀ g ∈ cut.gaps, ∃ s, g.Takes arguments s)) ∧
      (∀ before g after, cut.gaps = before ++ g :: after →
        (∀ b ∈ before, b.numeral.length ≤ Value.digitLimit) →
        Value.digitLimit < g.numeral.length →
        code.arity = .error (.longNumeral g.numeral.length) ∧
          code.isWellFormed = .error (.longNumeral g.numeral.length)) ∧
      ((∀ g ∈ cut.gaps, g.numeral.length ≤ Value.digitLimit) →
        ∃ n, code.arity = .ok n ∧
          IsLeast {n | ∀ arguments : List Value, n ≤ arguments.length →
            ¬cut.Lacks arguments.length} n ∧
          (code.isWellFormed = .ok true ↔ ∀ i < n, cut.Uses i) ∧
          ((∃ i < n, ¬cut.Uses i) → code.isWellFormed =
            if countLimit < n then .error .overflow
            else if Machine.listLimit < n then .error .outOfMemory else .ok false)) ∧
      (∀ rules r card, RuleSet.validate rules = .ok () → r ∈ rules → r.card = some card →
        .kind code ∈ card.codes → ∃ n, code.arity = .ok n ∧
          (∀ g ∈ cut.gaps, g.numeral.length ≤ Value.digitLimit) ∧ ∀ arguments : List Value,
          (arguments.length = n → (∀ i < arguments.length, cut.Uses i) ∧
            ¬cut.Lacks arguments.length) ∧
          (arguments.length < n → cut.Lacks arguments.length)) := by
  refine ⟨Template.Cut.exists_isCutOf _, fun cut hcut => ?_⟩
  refine ⟨fun numeral hnumeral => ⟨hcut.exists_gap hnumeral, ?_⟩,
    fun arguments => ⟨fun texts => format_eq_ok hcut, fun before g after f => format_eq_error hcut,
      exists_format_iff hcut⟩,
    fun before g after hgaps hbefore hlong => ?_, fun hread => ?_,
    fun rules r card hvalid hr hcard hcode => ?_⟩
  · rintro ⟨g, hg, rfl⟩
    exact hcut.infix_of_mem hg
  · exact ⟨withPieces_eq_error hcut hgaps hbefore hlong _,
      withPieces_eq_error hcut hgaps hbefore hlong _⟩
  · exact ⟨_, withPieces_of_isCutOf hcut hread _, cut.isLeast_arity,
      isWellFormed_eq_true_iff hcut hread, isWellFormed_eq hcut hread⟩
  · obtain ⟨card', hcard', -, -, hown⟩ := ((RuleSet.validate_eq_ok_iff rules).1 hvalid).rule r hr
    rw [hcard] at hcard'
    cases hcard'
    obtain ⟨_, ⟨⟩, -, hform⟩ := hown _ hcode
    obtain ⟨hread, huses⟩ := uses_of_isWellFormed hcut hform
    obtain ⟨hnone, hleast⟩ := cut.isLeast_arity
    refine ⟨_, withPieces_of_isCutOf hcut hread _, hread, fun arguments => ⟨?_, fun hfew => ?_⟩⟩
    · intro hcount
      exact ⟨fun i hi => huses i (hcount ▸ hi), hnone arguments hcount.ge⟩
    · obtain ⟨g, hg, hindex⟩ := huses _ hfew
      exact ⟨g, hg, hindex.ge⟩

end Law

/-- A template whose placeholders come in descending order, with a zero before one numeral, a
foreign digit in the other and an open brace at the end. -/
def swappedKind : DiagnosticKind :=
  ⟨"swap", "swap.found", "\x7b01\x7d of \x7b\u0660\x7d\x7b", "warn", none⟩

/-- The cut of this template. -/
def swappedCut : Template.Cut := ⟨[], [⟨['0', '1'], " of ".toList⟩, ⟨['\u0660'], ['\x7b']⟩]⟩

/-- A rule that declares a kind with this template. -/
def swappedRule : Rule where
  object := .string "swap"
  card := some ⟨"swap", "swap", .errors, [.kind swappedKind], "swap"⟩
  setup := some (fun _ => .done)

lemma not_hasPlaceholder_of_not_mem {s : List Char} (h : '\x7d' ∉ s) :
    ¬Template.HasPlaceholder s := by
  rintro ⟨numeral, -, hoccurs⟩
  exact h (hoccurs.subset (by simp [Template.placeholder]))

lemma isCutOf_swappedCut : swappedCut.IsCutOf swappedKind.template.toList := by
  refine ⟨by decide, ?_, not_hasPlaceholder_of_not_mem (by decide), ?_⟩
  · refine List.forall_mem_cons.2 ⟨⟨by decide, ?_⟩, List.forall_mem_singleton.2 ⟨by decide, ?_⟩⟩
    · exact List.forall_mem_cons.2 ⟨⟨0, by decide⟩, List.forall_mem_singleton.2 ⟨1, by decide⟩⟩
    · exact List.forall_mem_singleton.2 ⟨0, by decide⟩
  · exact List.forall_mem_cons.2 ⟨not_hasPlaceholder_of_not_mem (by decide),
      List.forall_mem_singleton.2 (not_hasPlaceholder_of_not_mem (by decide))⟩

attribute [local instance] Machine.small

theorem format_law_swapped :
    swappedCut.IsCutOf swappedKind.template.toList ∧
    RuleSet.validate [swappedRule] = .ok () ∧
    swappedKind.format [.string "\x7b1\x7d", .string "all"] = .ok "all of \x7b1\x7d\x7b" ∧
    swappedCut.Lacks 1 := by
  have hcut := isCutOf_swappedCut
  have hread : ∀ g ∈ swappedCut.gaps, g.numeral.length ≤ Value.digitLimit := by decide
  have hvalid : RuleSet.validate [swappedRule] = .ok () := by
    have hform : swappedKind.isWellFormed = .ok true := by
      rw [isWellFormed, withPieces_of_isCutOf hcut hread]
      rfl
    refine (RuleSet.validate_eq_ok_iff _).2 ⟨List.forall_mem_singleton.2 ?_, by decide, by decide⟩
    exact ⟨_, rfl, rfl, List.cons_ne_nil _ _, List.forall_mem_singleton.2 ⟨_, rfl, rfl, hform⟩⟩
  obtain ⟨-, hmessages, -, -, haccepted⟩ := (format_law swappedKind).2 swappedCut hcut
  have hformat : swappedKind.format [.string "\x7b1\x7d", .string "all"] =
      .ok (String.ofList (swappedCut.filled fun i => if i = 0 then "\x7b1\x7d" else "all")) := by
    refine (hmessages _).1 _ ?_
    exact List.forall_mem_cons.2 ⟨.argument (by decide) rfl rfl,
      List.forall_mem_singleton.2 (.argument (by decide) rfl rfl)⟩
  obtain ⟨n, hn, -, hcounts⟩ := haccepted [swappedRule] swappedRule _ hvalid
    (List.mem_singleton.2 rfl) rfl (List.mem_singleton.2 rfl)
  have harity : swappedKind.arity = .ok 2 := by
    rw [arity, withPieces_of_isCutOf hcut hread]
    rfl
  rw [harity] at hn
  cases hn
  exact ⟨hcut, hvalid, hformat.trans (congrArg _ (by decide)), (hcounts [.null]).2 (by decide)⟩

/-- A kind whose template leaves out all arguments but one, of more than can be counted. -/
def wideKind : DiagnosticKind :=
  ⟨"wide", "wide.found", "\x7b99999999999999999999\x7d", "warn", none⟩

/-- The cut of this template. -/
def wideCut : Template.Cut := ⟨[], [⟨List.replicate 20 '9', []⟩]⟩

lemma isCutOf_wideCut : wideCut.IsCutOf wideKind.template.toList := by
  refine ⟨by decide, ?_, not_hasPlaceholder_of_not_mem (by decide), ?_⟩
  · refine List.forall_mem_singleton.2 ⟨by decide, fun c hc => ⟨9, ?_⟩⟩
    rw [List.eq_of_mem_replicate hc]
    decide
  · exact List.forall_mem_singleton.2 (not_hasPlaceholder_of_not_mem (by decide))

/-- To tell that arguments are left out, too many would have to be listed. -/
lemma isWellFormed_wideKind [Machine] : wideKind.isWellFormed = .error .overflow := by
  have hread : ∀ g ∈ wideCut.gaps, g.numeral.length ≤ Value.digitLimit := by decide
  rw [isWellFormed, withPieces_of_isCutOf isCutOf_wideCut hread]
  rfl

/-- Not every template can be told to leave out an argument. -/
theorem not_forall_isWellFormed_iff :
    ¬∀ (code : DiagnosticKind) (cut : Template.Cut), cut.IsCutOf code.template.toList →
      ∀ n, code.arity = .ok n →
        ∃ b, code.isWellFormed = .ok b ∧ (b = true ↔ ∀ i < n, cut.Uses i) := by
  intro h
  have hread : ∀ g ∈ wideCut.gaps, g.numeral.length ≤ Value.digitLimit := by decide
  have harity : wideKind.arity = .ok 100000000000000000000 := by
    rw [arity, withPieces_of_isCutOf isCutOf_wideCut hread]
    rfl
  obtain ⟨b, hb, -⟩ := h wideKind wideCut isCutOf_wideCut _ harity
  rw [isWellFormed_wideKind] at hb
  cases hb

end DiagnosticKind

end TreeLint
