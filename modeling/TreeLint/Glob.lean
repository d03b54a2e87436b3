/-
Patterns over rule names.

In a pattern `*` stands for any text, `?` for any one character and a bracketed
set for one character of the set; every other character stands for itself.  A
set that starts with `!` stands for the characters outside it, a dash between
two characters of a set for the range between them, and a bracket that is never
closed for itself.  A range whose ends are in descending order is left out of
its set.  Case counts, and a pattern has to match the whole name.

`Glob.parse` reads a pattern, and the equations of `Glob.matchParts` are the
meaning of its parts.  To try every text that a star may stand for takes a time
that grows with the number of stars, so `Glob.matches` goes through the parts from
the last to the first and notes for every end of the name whether the parts so far
stand for it.
-/
namespace TreeLint

/-- A member of a bracketed set. -/
inductive GlobItem where
  /-- A single character. -/
  | one (c : Char)
  /-- The characters from the first to the second one. -/
  | range (lo hi : Char)
deriving DecidableEq, Repr

/-- A part of a pattern. -/
inductive GlobPart where
  /-- Any text, the empty one included. -/
  | anyText
  /-- Any one character. -/
  | anyChar
  /-- The character itself. -/
  | char (c : Char)
  /-- One character of a set, or outside it when the set is negated. -/
  | set (negated : Bool) (items : List GlobItem)
deriving DecidableEq, Repr

/-- Whether a character belongs to a member of a set. -/
def GlobItem.contains (c : Char) : GlobItem → Bool
  | .one d => c == d
  | .range lo hi => lo.toNat ≤ c.toNat && c.toNat ≤ hi.toNat

namespace Glob

/-! ### Bracketed sets -/

/-- Splits a text at its first closing bracket. -/
def splitAtClose : List Char → Option (List Char × List Char)
  | [] => none
  | ']' :: rest => some ([], rest)
  | c :: rest => (splitAtClose rest).map (fun p => (c :: p.1, p.2))

/-- The content of a set and the pattern after it, from the text after the opening bracket.  A
closing bracket at the start of the content, or just after the negation mark, belongs to it. -/
def splitSet : List Char → Option (List Char × List Char)
  | '!' :: ']' :: rest => (splitAtClose rest).map (fun p => ('!' :: ']' :: p.1, p.2))
  | ']' :: rest => (splitAtClose rest).map (fun p => (']' :: p.1, p.2))
  | rest => splitAtClose rest

theorem length_of_splitAtClose {s a b : List Char} (h : splitAtClose s = some (a, b)) :
    b.length < s.length := by
  induction s generalizing a b with
  | nil => simp [splitAtClose] at h
  | cons c s ih =>
    unfold splitAtClose at h
    split at h
    · cases h
    · next heq => cases heq; cases h; simp
    · next heq =>
      cases heq
      obtain ⟨p, hp, he⟩ := Option.map_eq_some_iff.1 h
      cases he
      have := ih hp
      simp only [List.length_cons]
      omega

theorem length_of_splitSet {s a b : List Char} (h : splitSet s = some (a, b)) :
    b.length < s.length := by
  unfold splitSet at h
  split at h
  · obtain ⟨p, hp, he⟩ := Option.map_eq_some_iff.1 h
    cases he
    have := length_of_splitAtClose hp
    simp only [List.length_cons]
    omega
  · obtain ⟨p, hp, he⟩ := Option.map_eq_some_iff.1 h
    cases he
    have := length_of_splitAtClose hp
    simp only [List.length_cons]
    omega
  · exact length_of_splitAtClose h

/-- Cuts a text at its first dash that has at least `skip` characters before it. -/
def cutAtDash (skip : Nat) (s : List Char) : Option (List Char × List Char) :=
  match (s.drop skip).dropWhile (· != '-') with
  | [] => none
  | _ :: after => some (s.take skip ++ (s.drop skip).takeWhile (· != '-'), after)

theorem length_of_cutAtDash {skip : Nat} {s a b : List Char}
    (h : cutAtDash skip s = some (a, b)) : b.length < s.length := by
  unfold cutAtDash at h
  split at h
  · cases h
  · next c after hd =>
    cases h
    have hsuf := (List.dropWhile_suffix (l := s.drop skip) (· != '-')).length_le
    rw [hd, List.length_cons, List.length_drop] at hsuf
    omega

/-- The pieces of a set between its dashes that form ranges.  After the first piece, which has at
least `skip` characters, every piece but the last has two characters or more; a dash at the very
end belongs to the last piece. -/
def cutRanges (skip : Nat) (s : List Char) : List (List Char) :=
  match h : cutAtDash skip s with
  | none => [s]
  | some (piece, []) => [piece ++ ['-']]
  | some (piece, rest) =>
    have := length_of_cutAtDash h
    piece :: cutRanges 2 rest
termination_by s.length

/-- Puts a piece before the others; if the two characters around the dash between them are in
descending order, both are dropped and the pieces are joined. -/
def joinDescending (piece : List Char) : List (List Char) → List (List Char)
  | [] => [piece]
  | next :: rest =>
    match piece.getLast?, next with
    | some lo, hi :: more =>
      if hi.toNat < lo.toNat then (piece.dropLast ++ more) :: rest else piece :: next :: rest
    | _, _ => piece :: next :: rest

/-- The members of a set from its pieces: the characters around the dash between two pieces form
a range, and a dash with nothing before it is a character. -/
def itemsOf : List (List Char) → List GlobItem
  | [] => []
  | [piece] => piece.map .one
  | piece :: next :: rest =>
    match piece.getLast?, next with
    | some lo, hi :: more =>
      piece.dropLast.map .one ++ .range lo hi :: itemsOf (more :: rest)
    | _, _ => piece.map .one ++ .one '-' :: itemsOf (next :: rest)
termination_by pieces => pieces.length

/-- The set with a given content. -/
def setOf (content : List Char) : GlobPart :=
  let skip := if content.head? = some '!' then 2 else 1
  let pieces := (cutRanges skip content).foldr joinDescending []
  match pieces with
  | ('!' :: piece) :: rest => .set true (itemsOf (piece :: rest))
  | _ => .set false (itemsOf pieces)

/-! ### Patterns and names -/

/-- The parts of a pattern. -/
def parse (pattern : List Char) : List GlobPart :=
  match pattern with
  | [] => []
  | '*' :: rest =>
    match parse rest with
    | .anyText :: parts => .anyText :: parts
    | parts => .anyText :: parts
  | '?' :: rest => .anyChar :: parse rest
  | '[' :: rest =>
    match h : splitSet rest with
    | none => .char '[' :: parse rest
    | some (content, after) =>
      have := length_of_splitSet h
      setOf content :: parse after
  | c :: rest => .char c :: parse rest
termination_by pattern.length

/-- Whether a part other than `anyText` stands for a character. -/
def partAccepts (c : Char) : GlobPart → Bool
  | .anyText => false
  | .anyChar => true
  | .char d => c == d
  | .set negated items => items.any (·.contains c) != negated

/-- Whether the parts of a pattern stand for the whole of a text. -/
def matchParts : List GlobPart → List Char → Bool
  | [], s => s.isEmpty
  | .anyText :: parts, [] => matchParts parts []
  | .anyText :: parts, c :: s => matchParts parts (c :: s) || matchParts (.anyText :: parts) s
  | _ :: _, [] => false
  | part :: parts, c :: s => partAccepts c part && matchParts parts s
termination_by parts s => parts.length + s.length

/-- A row holds a truth value for every end of a text, from the whole text to the empty one. -/
def rowOf (f : List Char → Bool) : List Char → List Bool
  | [] => [f []]
  | c :: s => f (c :: s) :: rowOf f s

/-- The row of a part for one character before parts with a given row. -/
def rowOfChar (part : GlobPart) : List Char → List Bool → List Bool
  | c :: s, _ :: row => (partAccepts c part && row.headD false) :: rowOfChar part s row
  | _, _ => [false]

/-- The row of any text before parts with a given row. -/
def rowOfText (row : List Bool) : List Bool :=
  row.foldr (fun b after => (b || after.headD false) :: after) []

/-- The row of some parts: for which ends of a text they stand. -/
def rowOfParts (s : List Char) : List GlobPart → List Bool
  | [] => rowOf List.isEmpty s
  | .anyText :: parts => rowOfText (rowOfParts s parts)
  | part :: parts => rowOfChar part s (rowOfParts s parts)

@[simp] theorem headD_rowOf (f : List Char → Bool) (s : List Char) (b : Bool) :
    (rowOf f s).headD b = f s := by
  cases s <;> rfl

theorem rowOfText_rowOf (parts : List GlobPart) (s : List Char) :
    rowOfText (rowOf (matchParts parts) s) = rowOf (matchParts (.anyText :: parts)) s := by
  induction s with
  | nil => simp [rowOfText, rowOf, matchParts]
  | cons c s ih =>
    have step : rowOfText (rowOf (matchParts parts) (c :: s)) =
        (matchParts parts (c :: s) || (rowOfText (rowOf (matchParts parts) s)).headD false) ::
          rowOfText (rowOf (matchParts parts) s) := rfl
    rw [step, ih, headD_rowOf, rowOf, matchParts]

theorem rowOfChar_rowOf {part : GlobPart} (h : part ≠ .anyText) (parts : List GlobPart)
    (s : List Char) :
    rowOfChar part s (rowOf (matchParts parts) s) = rowOf (matchParts (part :: parts)) s := by
  induction s with
  | nil => cases part <;> simp [rowOfChar, rowOf, matchParts] at h ⊢
  | cons c s ih =>
    rw [rowOf, rowOfChar, ih, headD_rowOf, rowOf]
    cases part <;> simp [matchParts] at h ⊢

/-- The row of some parts tells for every end of a text whether they stand for it. -/
theorem rowOfParts_eq (s : List Char) (parts : List GlobPart) :
    rowOfParts s parts = rowOf (matchParts parts) s := by
  induction parts with
  | nil =>
    have : matchParts [] = List.isEmpty := by
      funext t
      rw [matchParts]
    rw [rowOfParts, this]
  | cons part parts ih =>
    by_cases h : part = .anyText
    · subst h
      rw [rowOfParts, ih, rowOfText_rowOf]
    · rw [rowOfParts, ih, rowOfChar_rowOf h]
      exact fun heq => h heq

/-- Whether a pattern matches a name. -/
def «matches» (pattern name : String) : Bool :=
  (rowOfParts name.toList (parse pattern.toList)).headD false

/-- A pattern matches a name if its parts stand for the whole of it. -/
theorem matches_eq_matchParts (pattern name : String) :
    Glob.matches pattern name = matchParts (parse pattern.toList) name.toList := by
  rw [«matches», rowOfParts_eq, headD_rowOf]

/-- Whether one of several patterns matches a name. -/
def matchesAny (patterns : List String) (name : String) : Bool :=
  patterns.any (fun pattern => Glob.matches pattern name)

@[simp] theorem matchesAny_nil (name : String) : matchesAny [] name = false := rfl

@[simp] theorem matchesAny_cons (pattern : String) (patterns : List String) (name : String) :
    matchesAny (pattern :: patterns) name =
      (Glob.matches pattern name || matchesAny patterns name) := rfl

end Glob

end TreeLint
