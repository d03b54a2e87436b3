/-
A document can be read off its text.

The text of a plain document is a code: whatever follows it, behind a comma or a line
break or at the end, the text tells where it ends and which document it is
(`Document.IsPlain.eq_of_writeAt_append`).  A text in a document ends at its first quote
that is not escaped, a number before the first character that is none of a number, and a
list at the first line that does not follow a comma.  So no two plain documents have one
text (`Document.write_injective`), and the protocol that programs use is lawful.
-/
import Mathlib.Data.List.Basic
import TreeLint.Output.Protocol
import TreeLint.Text.Radix
namespace TreeLint.Document

/-! ### Texts -/

/-- The character that an escape by a single character stands for. -/
def escaped? (c : Char) : Option Char :=
  [('"', '"'), ('\\', '\\'), ('b', '\x08'), ('t', '\t'), ('n', '\n'), ('f', '\x0c'),
    ('r', '\r')].lookup c

/-- Takes one character off what stands between the quotes of a text. -/
def takeChar? : List Char → Option (Char × List Char)
  | '\\' :: 'u' :: a :: b :: c :: d :: rest =>
    (Text.ofRadix? 16 [a, b, c, d]).map fun n => (Char.ofNat n, rest)
  | '\\' :: c :: rest => (escaped? c).map fun c => (c, rest)
  | '"' :: _ => none
  | c :: rest => some (c, rest)
  | [] => none

/-- What stands between the quotes of a text. -/
def escapes (chars : List Char) : List Char := chars.flatMap fun c => (stringChar c).toList

variable {chars chars' rest rest' : List Char} {s s' : String}

/-- The escape of a control character by its code. -/
lemma takeChar?_code {n : Nat} (h : n < 0x20) (rest : List Char) :
    takeChar? (("\\u" ++ Text.paddedHex false 4 n).toList ++ rest) =
      some (Char.ofNat n, rest) := by
  have hcode : ∀ n < 0x20, (Text.paddedHex false 4 n).toList.length = 4 ∧
      Text.ofRadix? 16 (Text.paddedHex false 4 n).toList = some n := by
    simp only [Text.paddedHex, String.toList_ofList]
    decide
  obtain ⟨hlength, hvalue⟩ := hcode n h
  obtain ⟨a, b, c, d, hdigits⟩ := List.length_eq_four.1 hlength
  rw [hdigits] at hvalue
  rw [String.toList_append, hdigits]
  show (Text.ofRadix? 16 [a, b, c, d]).map _ = _
  rw [hvalue]
  rfl

/-- A character is taken off its escape. -/
lemma takeChar?_stringChar {c : Char} (h : Text.half? c = none) (rest : List Char) :
    takeChar? ((stringChar c).toList ++ rest) = some (c, rest) := by
  have hcode : Text.codeOf c = c.toNat := by rw [Text.codeOf, h, Option.getD_none]
  unfold stringChar
  split_ifs with hquote hslash hback htab hline hpage hreturn hcontrol
  · rw [hquote]
    rfl
  · rw [hslash]
    rfl
  · rw [hback]
    rfl
  · rw [htab]
    rfl
  · rw [hline]
    rfl
  · rw [hpage]
    rfl
  · rw [hreturn]
    rfl
  · have hlt : c.toNat < 0x20 := by simpa [h] using hcontrol
    rw [hcode, takeChar?_code hlt, Char.ofNat_toNat]
  · rw [Char.toString_eq_singleton, String.toList_singleton, List.singleton_append,
      takeChar?.eq_def]
    split <;> simp_all

/-- What stands between quotes is told from what follows. -/
lemma escapes_append_inj (h : ∀ c ∈ chars, Text.half? c = none)
    (h' : ∀ c ∈ chars', Text.half? c = none)
    (heq : escapes chars ++ '"' :: rest = escapes chars' ++ '"' :: rest') :
    chars = chars' ∧ rest = rest' := by
  have hstep : ∀ (c : Char) (chars rest : List Char), Text.half? c = none →
      takeChar? (escapes (c :: chars) ++ '"' :: rest) = some (c, escapes chars ++ '"' :: rest) := by
    intro c chars rest hc
    rw [escapes, List.flatMap_cons, List.append_assoc]
    exact takeChar?_stringChar hc _
  have hend : ∀ rest, takeChar? (escapes [] ++ '"' :: rest) = none := fun _ => rfl
  induction chars generalizing chars' with
  | nil =>
    cases chars' with
    | nil => exact ⟨rfl, List.tail_eq_of_cons_eq heq⟩
    | cons c' chars' =>
      have htaken := congrArg takeChar? heq
      rw [hend, hstep c' chars' _ (List.forall_mem_cons.1 h').1] at htaken
      cases htaken
  | cons c chars ih =>
    obtain ⟨hc, hchars⟩ := List.forall_mem_cons.1 h
    have htaken := congrArg takeChar? heq
    rw [hstep c chars _ hc] at htaken
    cases chars' with
    | nil =>
      rw [hend] at htaken
      cases htaken
    | cons c' chars' =>
      obtain ⟨hc', hchars'⟩ := List.forall_mem_cons.1 h'
      rw [hstep c' chars' _ hc', Option.some.injEq, Prod.mk.injEq] at htaken
      obtain ⟨rfl, hrest⟩ := htaken
      obtain ⟨rfl, hends⟩ := ih hchars hchars' hrest
      exact ⟨rfl, hends⟩

lemma toList_stringText (s : String) :
    (stringText s).toList = '"' :: (escapes s.toList ++ ['"']) := by
  simp only [stringText, String.toList_append, String.toList_join, List.flatMap_map, escapes]
  rfl

/-- A text in a document is told from what follows. -/
lemma stringText_append_inj (h : IsText s) (h' : IsText s')
    (heq : (stringText s).toList ++ rest = (stringText s').toList ++ rest') :
    s = s' ∧ rest = rest' := by
  simp only [toList_stringText, List.cons_append, List.append_assoc, List.cons.injEq,
    true_and] at heq
  obtain ⟨hchars, hrest⟩ := escapes_append_inj h h' heq
  exact ⟨String.toList_inj.1 hchars, hrest⟩

/-! ### Words -/

/-- Whether something that follows a document in a text begins as what stands between documents
does. -/
def EndsHere (rest : List Char) : Prop := ∀ c ∈ rest.head?, c = ',' ∨ c = '\n'

/-- Whether a character may stand in a number. -/
def isInner (c : Char) : Bool := c ≠ ',' && c ≠ '\n'

/-- A word without commas and line breaks is told from what follows. -/
lemma word_append_inj {word word' : List Char} (h : ∀ c ∈ word, isInner c)
    (h' : ∀ c ∈ word', isInner c) (hrest : EndsHere rest) (hrest' : EndsHere rest')
    (heq : word ++ rest = word' ++ rest') : word = word' ∧ rest = rest' := by
  have htake : ∀ {word rest : List Char}, (∀ c ∈ word, isInner c) → EndsHere rest →
      (word ++ rest).takeWhile isInner = word := by
    intro word rest hword hends
    have hnothing : rest.takeWhile isInner = [] := by
      cases rest with
      | nil => rfl
      | cons c rest =>
        refine List.takeWhile_cons_of_neg ?_
        rcases hends c rfl with rfl | rfl <;> decide
    rw [List.takeWhile_append_of_pos hword, hnothing, List.append_nil]
  have hword : word = word' := by rw [← htake h hrest, heq, htake h' hrest']
  subst hword
  exact ⟨rfl, List.append_cancel_left heq⟩

/-- The characters of an integer. -/
lemma isDigit_of_mem_toString {n : Int} {c : Char} (hc : c ∈ (toString n).toList) :
    c.isDigit = true ∨ c = '-' := by
  rw [Int.toString_eq_repr] at hc
  have hdigit : ∀ m : Nat, c ∈ m.repr.toList → c.isDigit = true := fun m hm =>
    Nat.isDigit_of_mem_toDigits (by decide) (by decide) (Nat.toList_repr ▸ hm)
  cases n with
  | ofNat m => exact .inl (hdigit m hc)
  | negSucc m =>
    rw [Int.repr, String.toList_append] at hc
    rcases List.mem_append.1 hc with hc | hc
    · exact .inr (List.mem_singleton.1 hc)
    · exact .inl (hdigit _ hc)

lemma repr_inj {m n : Nat} (h : m.repr.toList = n.repr.toList) : m = n := by
  have hvalue : ∀ n : Nat, Nat.ofDigitChars 10 n.repr.toList 0 = n := fun n => by
    rw [Nat.toList_repr]
    exact Nat.ofDigitChars_toDigits (by decide) (by decide)
  rw [← hvalue m, h, hvalue]

/-- Integers are told apart by their texts. -/
lemma toString_inj {m n : Int} (h : (toString m).toList = (toString n).toList) : m = n := by
  have hminus : ∀ (m n : Nat), m.repr.toList ≠ '-' :: n.repr.toList := by
    intro m n heq
    have hdigit : ('-' : Char).isDigit = true :=
      Nat.isDigit_of_mem_toDigits (by decide) (by decide)
        (Nat.toList_repr ▸ (heq ▸ List.mem_cons_self : '-' ∈ m.repr.toList))
    exact absurd hdigit (by decide)
  have hnegative : ∀ m : Nat, (Int.repr (.negSucc m)).toList = '-' :: m.succ.repr.toList :=
    fun m => String.toList_append
  rw [Int.toString_eq_repr, Int.toString_eq_repr] at h
  cases m with
  | ofNat m =>
    cases n with
    | ofNat n => exact congrArg Int.ofNat (repr_inj h)
    | negSucc n => exact absurd (h.trans (hnegative n)) (hminus m _)
  | negSucc m =>
    cases n with
    | ofNat n => exact absurd (h.symm.trans (hnegative m)) (hminus n _)
    | negSucc n =>
      rw [hnegative, hnegative, List.cons.injEq] at h
      exact congrArg Int.negSucc (Nat.succ.inj (repr_inj h.2))

/-- Another text than digits and a minus is not that of an integer. -/
lemma toString_ne {n : Int} {s : String} {c : Char} (hc : c ∈ s.toList)
    (hother : c.isDigit = false ∧ c ≠ '-') : (toString n).toList ≠ s.toList := by
  intro heq
  rcases isDigit_of_mem_toString (heq ▸ hc : c ∈ (toString n).toList) with h | h
  · rw [hother.1] at h
    cases h
  · exact hother.2 h

/-! ### Lists -/

section Lists

variable {α : Type} {items items' : List α} {line : List Char}

/-- Texts behind others, each on a line of its own. -/
def rows (line : List Char) (texts : List (List Char)) : List Char :=
  texts.flatMap fun t => ',' :: (line ++ t)

lemma toList_newLine (level : Nat) :
    (newLine level).toList = '\n' :: ("".pushn ' ' (2 * level)).toList :=
  String.toList_append

lemma toList_bracketed_cons (level : Nat) (opening closing first : String) (others : List String) :
    (bracketed level opening closing (first :: others)).toList =
      opening.toList ++ ((newLine (level + 1)).toList ++ first.toList ++
        rows (newLine (level + 1)).toList (others.map String.toList)) ++
        (newLine level).toList ++ closing.toList := by
  have hrows : ∀ first : String, (String.intercalate "," (first :: others.map
      (newLine (level + 1) ++ ·))).toList = first.toList ++
        rows (newLine (level + 1)).toList (others.map String.toList) := by
    induction others with
    | nil =>
      intro first
      simp [rows]
    | cons second others ih =>
      intro first
      rw [List.map_cons, String.intercalate_cons_cons, String.toList_append, String.toList_append,
        ih, String.toList_append, List.append_assoc]
      simp only [rows, List.map_cons, List.flatMap_cons]
      rfl
  rw [bracketed, if_neg (by simp), List.map_cons]
  simp only [String.toList_append]
  rw [hrows, String.toList_append]

/-- Whether what follows a text tells the text from those of others. -/
def AreTold (text : α → List Char) (items items' : List α) : Prop :=
  ∀ a ∈ items, ∀ a' ∈ items', ∀ rest rest', EndsHere rest → EndsHere rest' →
    text a ++ rest = text a' ++ rest' → a = a' ∧ rest = rest'

lemma endsHere_rows (line : List Char) (texts : List (List Char)) (rest : List Char) :
    EndsHere (rows line texts ++ '\n' :: rest) := by
  cases texts with
  | nil => exact fun c hc => .inr (Option.some.inj hc).symm
  | cons t texts => exact fun c hc => .inl (Option.some.inj hc).symm

/-- Rows end at the first line that does not follow a comma. -/
lemma rows_append_inj {text : α → List Char} (h : AreTold text items items')
    (heq : rows line (items.map text) ++ '\n' :: rest =
      rows line (items'.map text) ++ '\n' :: rest') : items = items' ∧ rest = rest' := by
  induction items generalizing items' with
  | nil =>
    cases items' with
    | nil => exact ⟨rfl, List.tail_eq_of_cons_eq heq⟩
    | cons a' items' => exact absurd (List.head_eq_of_cons_eq heq) (by decide)
  | cons a items ih =>
    cases items' with
    | nil => exact absurd (List.head_eq_of_cons_eq heq) (by decide)
    | cons a' items' =>
      simp only [rows, List.map_cons, List.flatMap_cons, List.cons_append, List.append_assoc,
        List.cons.injEq, true_and, List.append_cancel_left_eq] at heq
      obtain ⟨rfl, hrest⟩ := h a (by simp) a' (by simp) _ _ (endsHere_rows line _ rest)
        (endsHere_rows line _ rest') heq
      obtain ⟨rfl, hend⟩ := ih (fun b hb b' hb' => h b (by simp [hb]) b' (by simp [hb'])) hrest
      exact ⟨rfl, hend⟩

/-- A list between brackets is told from what follows. -/
lemma bracketed_append_inj {text : α → String} {level : Nat} {opening closing : String} {c : Char}
    (hclosing : closing.toList = [c]) (hc : c ≠ '\n')
    (h : AreTold (fun a => (text a).toList) items items')
    (heq : (bracketed level opening closing (items.map text)).toList ++ rest =
      (bracketed level opening closing (items'.map text)).toList ++ rest') :
    items = items' ∧ rest = rest' := by
  have hempty : (bracketed level opening closing ([].map text)).toList =
      opening.toList ++ closing.toList := String.toList_append
  cases items with
  | nil =>
    cases items' with
    | nil => exact ⟨rfl, List.append_cancel_left heq⟩
    | cons a' items' =>
      rw [hempty, List.map_cons, toList_bracketed_cons, toList_newLine, hclosing] at heq
      simp only [List.append_assoc, List.append_cancel_left_eq, List.cons_append, List.nil_append,
        List.cons.injEq] at heq
      exact absurd heq.1 hc
  | cons a items =>
    cases items' with
    | nil =>
      rw [hempty, List.map_cons, toList_bracketed_cons, toList_newLine, hclosing] at heq
      simp only [List.append_assoc, List.append_cancel_left_eq, List.cons_append, List.nil_append,
        List.cons.injEq] at heq
      exact absurd heq.1.symm hc
    | cons a' items' =>
      rw [List.map_cons, List.map_cons, toList_bracketed_cons, toList_bracketed_cons,
        toList_newLine level] at heq
      simp only [List.append_assoc, List.append_cancel_left_eq, List.cons_append,
        List.map_map] at heq
      -- with a comma in front the first line is one of the rows
      have hrows : rows (newLine (level + 1)).toList ((a :: items).map fun a => (text a).toList) ++
            '\n' :: (("".pushn ' ' (2 * level)).toList ++ (closing.toList ++ rest)) =
          rows (newLine (level + 1)).toList ((a' :: items').map fun a => (text a).toList) ++
            '\n' :: (("".pushn ' ' (2 * level)).toList ++ (closing.toList ++ rest')) := by
        simp only [rows, List.map_cons, List.flatMap_cons, List.cons_append, List.append_assoc,
          List.cons.injEq, true_and, List.append_cancel_left_eq]
        exact heq
      obtain ⟨hitems, hrest⟩ := rows_append_inj h hrows
      exact ⟨hitems, List.append_cancel_left (List.append_cancel_left hrest)⟩

end Lists

/-! ### Documents -/

section Documents

variable {d d' : Document}

/-- The quote or bracket with which a document begins, if it is not a word. -/
def opener? : Document → Option Char
  | null | int _ | float _ => none
  | string _ => some '"'
  | array _ => some '['
  | object _ => some '\x7b'

lemma floatText_zero : floatText 0.0 = "0.0" := by decide +kernel

lemma writeItems_eq_map (level : Nat) (items : List Document) :
    writeItems level items = items.map (writeAt level) := by
  induction items with
  | nil => rfl
  | cons d rest ih => rw [writeItems, ih, List.map_cons]

/-- A named field. -/
def writeField (level : Nat) (field : String × Document) : String :=
  stringText field.1 ++ ": " ++ field.2.writeAt level

lemma writeFields_eq_map (level : Nat) (fields : List (String × Document)) :
    writeFields level fields = fields.map (writeField level) := by
  induction fields with
  | nil => rfl
  | cons field rest ih => rw [writeFields, ih, List.map_cons, writeField]

/-- A word has no comma and no line break. -/
lemma IsPlain.isInner_of_mem (h : d.IsPlain) (hword : d.opener? = none) {level : Nat} {c : Char}
    (hc : c ∈ (d.writeAt level).toList) : isInner c = true := by
  cases h with
  | null =>
    have hall : "null".toList.all isInner = true := by decide
    exact List.all_eq_true.1 hall c hc
  | zero =>
    have hall : "0.0".toList.all isInner = true := by decide
    rw [writeAt, floatText_zero] at hc
    exact List.all_eq_true.1 hall c hc
  | int n =>
    rw [writeAt] at hc
    rcases isDigit_of_mem_toString hc with hdigit | rfl
    · rw [isInner, Bool.and_eq_true, decide_eq_true_eq, decide_eq_true_eq]
      constructor <;> rintro rfl <;> exact absurd hdigit (by decide)
    · decide
  | string | array | object => cases hword

/-- Words are told apart by their texts. -/
lemma IsPlain.eq_of_writeAt (h : d.IsPlain) (h' : d'.IsPlain) (hword : d.opener? = none)
    (hword' : d'.opener? = none) {level : Nat}
    (heq : (d.writeAt level).toList = (d'.writeAt level).toList) : d = d' := by
  have hnull : ∀ n : Int, (toString n).toList ≠ "null".toList :=
    fun n => toString_ne (c := 'n') (by decide) (by decide)
  have hzero : ∀ n : Int, (toString n).toList ≠ "0.0".toList :=
    fun n => toString_ne (c := '.') (by decide) (by decide)
  cases h with
  | string | array | object => cases hword
  | null =>
    cases h' with
    | string | array | object => cases hword'
    | null => rfl
    | int n => exact absurd heq.symm (hnull n)
    | zero =>
      rw [writeAt, writeAt, floatText_zero] at heq
      exact absurd heq (by decide)
  | int n =>
    cases h' with
    | string | array | object => cases hword'
    | null => exact absurd heq (hnull n)
    | int m => exact congrArg Document.int (toString_inj heq)
    | zero =>
      rw [writeAt, writeAt, floatText_zero] at heq
      exact absurd heq (hzero n)
  | zero =>
    cases h' with
    | string | array | object => cases hword'
    | null =>
      rw [writeAt, writeAt, floatText_zero] at heq
      exact absurd heq (by decide)
    | int n =>
      rw [writeAt, writeAt, floatText_zero] at heq
      exact absurd heq.symm (hzero n)
    | zero => rfl

/-- The opener of a document in a text, or none if a word begins there. -/
def openerOf (text : List Char) : Option Char :=
  text.head?.filter fun c => c = '"' || c = '[' || c = '\x7b'

lemma toList_bracketed (level : Nat) {opening closing : String} {c : Char}
    (h : opening.toList = [c]) (items : List String) :
    ∃ rest, (bracketed level opening closing items).toList = c :: rest := by
  cases items with
  | nil => exact ⟨_, String.toList_append.trans (by rw [h]; rfl)⟩
  | cons first others =>
    rw [toList_bracketed_cons, h]
    exact ⟨_, by simp only [List.append_assoc, List.singleton_append]; rfl⟩

lemma toString_ne_nil (n : Int) : (toString n).toList ≠ [] := by
  rw [Int.toString_eq_repr]
  cases n with
  | ofNat m =>
    rw [Int.repr, Nat.toList_repr]
    exact Nat.toDigits_ne_nil
  | negSucc m =>
    rw [Int.repr, String.toList_append]
    exact List.cons_ne_nil _ _

/-- How a document begins tells its sort. -/
lemma IsPlain.openerOf_writeAt (h : d.IsPlain) (level : Nat) (rest : List Char) :
    openerOf ((d.writeAt level).toList ++ rest) = d.opener? := by
  cases h with
  | null =>
    rw [writeAt]
    rfl
  | zero =>
    rw [writeAt, floatText_zero]
    rfl
  | int n =>
    rw [writeAt]
    rcases htext : (toString n).toList with _ | ⟨c, text⟩
    · exact absurd htext (toString_ne_nil n)
    · have hc := isDigit_of_mem_toString (htext ▸ List.mem_cons_self : c ∈ (toString n).toList)
      refine Option.filter_eq_none_iff.2 ?_
      rintro _ ⟨⟩
      rcases hc with hdigit | rfl
      · simp only [Bool.or_eq_true, decide_eq_true_eq]
        rintro ((rfl | rfl) | rfl) <;> exact absurd hdigit (by decide)
      · decide
  | string =>
    rw [writeAt, toList_stringText]
    rfl
  | array =>
    rw [writeAt]
    obtain ⟨text, htext⟩ := toList_bracketed level (rfl : "[".toList = ['[']) _
    rw [htext]
    rfl
  | object =>
    rw [writeAt]
    obtain ⟨text, htext⟩ := toList_bracketed level (rfl : "\x7b".toList = ['\x7b']) _
    rw [htext]
    rfl

/-- Documents are of one sort if their texts begin in the same way. -/
lemma IsPlain.opener?_eq (h : d.IsPlain) (h' : d'.IsPlain) {level : Nat}
    (heq : (d.writeAt level).toList ++ rest = (d'.writeAt level).toList ++ rest') :
    d.opener? = d'.opener? := by
  rw [← h.openerOf_writeAt level rest, heq, h'.openerOf_writeAt]

/-- A word is told from what follows. -/
lemma IsPlain.eq_of_word_append (h : d.IsPlain) (h' : d'.IsPlain) (hword : d.opener? = none)
    {level : Nat} (hrest : EndsHere rest) (hrest' : EndsHere rest')
    (heq : (d.writeAt level).toList ++ rest = (d'.writeAt level).toList ++ rest') :
    d = d' ∧ rest = rest' := by
  have hword' : d'.opener? = none := (h.opener?_eq h' heq).symm.trans hword
  obtain ⟨htext, hend⟩ := word_append_inj (fun c hc => h.isInner_of_mem hword hc)
    (fun c hc => h'.isInner_of_mem hword' hc) hrest hrest' heq
  exact ⟨h.eq_of_writeAt h' hword hword' htext, hend⟩

/-- **A document is told from what follows.** -/
theorem IsPlain.eq_of_writeAt_append (h : d.IsPlain) (h' : d'.IsPlain) {level : Nat}
    (hrest : EndsHere rest) (hrest' : EndsHere rest')
    (heq : (d.writeAt level).toList ++ rest = (d'.writeAt level).toList ++ rest') :
    d = d' ∧ rest = rest' := by
  induction h generalizing d' level rest rest' with
  | null => exact IsPlain.null.eq_of_word_append h' rfl hrest hrest' heq
  | int n => exact (IsPlain.int n).eq_of_word_append h' rfl hrest hrest' heq
  | zero => exact IsPlain.zero.eq_of_word_append h' rfl hrest hrest' heq
  | string htext =>
    have hopener := (IsPlain.string htext).opener?_eq h' heq
    cases h' with
    | null | int | zero | array | object => simp [opener?] at hopener
    | string htext' =>
      obtain ⟨rfl, hend⟩ := stringText_append_inj htext htext' heq
      exact ⟨rfl, hend⟩
  | @array items hitems ih =>
    have hopener := (IsPlain.array hitems).opener?_eq h' heq
    cases h' with
    | null | int | zero | string | object => simp [opener?] at hopener
    | @array items' hitems' =>
      have htold : AreTold (fun d => (d.writeAt (level + 1)).toList) items items' := by
        intro d hd d' hd' rest rest' hrest hrest' heq
        exact ih d hd (hitems' d' hd') hrest hrest' heq
      rw [writeAt, writeAt, writeItems_eq_map, writeItems_eq_map] at heq
      obtain ⟨rfl, hend⟩ := bracketed_append_inj rfl (by decide) htold heq
      exact ⟨rfl, hend⟩
  | @object fields hnames hvalues ih =>
    have hopener := (IsPlain.object hnames hvalues).opener?_eq h' heq
    cases h' with
    | null | int | zero | string | array => simp [opener?] at hopener
    | @object fields' hnames' hvalues' =>
      have htold : AreTold (fun e => (writeField (level + 1) e).toList) fields fields' := by
        intro e he e' he' rest rest' hrest hrest' heq
        simp only [writeField, String.toList_append, List.append_assoc] at heq
        obtain ⟨hname, htail⟩ := stringText_append_inj (hnames e he) (hnames' e' he') heq
        obtain ⟨hvalue, hend⟩ := ih e he (hvalues' e' he') hrest hrest'
          (List.append_cancel_left htail)
        exact ⟨Prod.ext hname hvalue, hend⟩
      rw [writeAt, writeAt, writeFields_eq_map, writeFields_eq_map] at heq
      obtain ⟨rfl, hend⟩ := bracketed_append_inj rfl (by decide) htold heq
      exact ⟨rfl, hend⟩

/-- **No two documents have one text.** -/
theorem write_injective (h : d.IsPlain) (h' : d'.IsPlain) (heq : d.write = d'.write) : d = d' := by
  have hnothing : EndsHere [] := nofun
  have htexts := congrArg (fun s => s.toList ++ []) heq
  exact (h.eq_of_writeAt_append h' hnothing hnothing htexts).1

end Documents

end TreeLint.Document

namespace TreeLint.Protocol

open Document (IsText)

lemma isText_string_iff {s : String} : isText (.string s) = true ↔ IsText s := by
  simp only [isText, IsText, List.all_eq_true, Option.isNone_iff_eq_none]

/-- The protocol that programs use is lawful. -/
theorem lawful_standard : standard.Lawful where
  text _ hs := isText_string_iff.2 hs
  textOrNothing s hs := by
    cases s with
    | none => rfl
    | some t => exact isText_string_iff.2 (hs t rfl)
  texts ss hss := by
    refine List.all_eq_true.2 (List.forall_mem_map.2 fun s hs => ?_)
    exact isText_string_iff.2 (hss s hs)
  oneOf _ _ := List.contains_iff_mem
  integer _ := rfl
  atLeast _ _ := decide_eq_true_iff
  time := by decide +kernel
  write_injective _ _ h h' := Document.write_injective h h'

end TreeLint.Protocol
