/-
A pen that writes lines of a bounded width.

The pen knows its column, whether a blank is needed before the next word, and
whether only indentation stands on the line so far.  Long scalars are folded at
single blanks once the pen has passed the width.
-/
import TreeLint.Text.Quoted
namespace TreeLint.Yaml

/-- The column behind which scalars are folded. -/
def lineWidth : Nat := 80

/-- A pen on a page. -/
structure Pen where
  /-- The text that has been written. -/
  text : String := ""
  /-- The number of characters on the line. -/
  column : Nat := 0
  /-- Whether a blank or the start of the line stands before the pen. -/
  spaced : Bool := true
  /-- Whether only indentation and marks of blocks stand on the line. -/
  fresh : Bool := true

namespace Pen

/-- Writes characters. -/
def put (p : Pen) (s : List Char) : Pen :=
  { p with text := p.text ++ String.ofList s, column := p.column + s.length }

/-- Starts a line. -/
def newLine (p : Pen) : Pen :=
  { text := p.text ++ "\n", column := 0, spaced := true, fresh := true }

/-- Goes to a column, on a new line unless only indentation stands before it. -/
def indentTo (p : Pen) (column : Nat) : Pen :=
  let p :=
    if !p.fresh || column < p.column || (p.column == column && !p.spaced) then p.newLine else p
  if p.column < column then
    { p.put (List.replicate (column - p.column) ' ') with spaced := true }
  else p

/-- Writes a word, with a blank before it if one is needed. -/
def word (p : Pen) (s : String) : Pen :=
  let p := if p.spaced then p else p.put [' ']
  { p.put s.toList with spaced := false, fresh := false }

/-- Writes a mark that opens an item, a key or a value of a block; the line stays fresh. -/
def blockMark (p : Pen) (s : String) : Pen :=
  let fresh := p.fresh
  { p.word s with fresh := fresh }

/-- Writes a mark without a blank before it. -/
def closeMark (p : Pen) (s : String) : Pen :=
  { p.put s.toList with spaced := false, fresh := false }

/-- Goes on with a scalar on a new line. -/
def fold (p : Pen) (column : Nat) : Pen :=
  { p.indentTo column with spaced := false, fresh := false }

/-- Whether the pen has passed the width. -/
def isFull (p : Pen) : Bool := lineWidth < p.column

end Pen

/-- A text cut into rows of equal class: each row with whether it belongs to the class. -/
def rows (p : Char → Bool) : List Char → List (Bool × List Char)
  | [] => []
  | c :: rest =>
    match rows p rest with
    | (b, row) :: more =>
      if p c == b then (b, c :: row) :: more else (p c, [c]) :: (b, row) :: more
    | [] => [(p c, [c])]

namespace Pen

/-! ### Plain scalars -/

/-- Writes the words of a plain scalar and the blanks between them. -/
def plainRows (mayFold : Bool) (column : Nat) : List (Bool × List Char) → Pen → Pen
  | [], p => p
  | (blanks, row) :: rest, p =>
    if blanks && row.length == 1 && p.isFull && mayFold then
      plainRows mayFold column rest (p.fold column)
    else plainRows mayFold column rest (p.put row)

/-- Writes a plain scalar. -/
def plain (p : Pen) (mayFold : Bool) (column : Nat) (s : String) : Pen :=
  plainRows mayFold column (rows (· == ' ') s.toList) (p.word "")

/-! ### Scalars between single quotes -/

/-- Writes some line starts. -/
def newLines : Nat → Pen → Pen
  | 0, p => p
  | n + 1, p => newLines n p.newLine

/-- The class of a character between single quotes: blanks and line ends stand apart. -/
def rowClass (c : Char) : Nat := if c == ' ' then 1 else if c == '\n' then 2 else 0

/-- Writes the characters between single quotes.  A quote is written twice, a row of line ends with
one line end more, and a blank between words may fold. -/
def singleRows (mayFold : Bool) (column : Nat) : Bool → List (List Char) → Pen → Pen
  | _, [], p => p
  | first, row :: rest, p =>
    let kind := (row.head?.map rowClass).getD 0
    let p :=
      if kind == 2 then (newLines (row.length + 1) p).indentTo column
      else if kind == 1 && row.length == 1 && p.isFull && mayFold && !first && !rest.isEmpty then
        p.indentTo column
      else p.put (row.flatMap (fun c => if c == '\'' then ['\'', '\''] else [c]))
    singleRows mayFold column false rest p

/-- Writes a scalar between single quotes. -/
def single (p : Pen) (mayFold : Bool) (column : Nat) (s : String) : Pen :=
  let rows := s.toList.splitBy (fun a b => rowClass a == rowClass b)
  (singleRows mayFold column true rows (p.word "'")).closeMark "'"

/-! ### Scalars between double quotes -/

/-- The letters of characters that are escaped by a letter. -/
def letters : List (Char × Char) := [
  ('\x00', '0'), ('\x07', 'a'), ('\x08', 'b'), ('\t', 't'), ('\n', 'n'), ('\x0b', 'v'),
  ('\x0c', 'f'), ('\r', 'r'), ('\x1b', 'e'), ('"', '"'), ('\\', '\\'), ('\x85', 'N'),
  ('\xa0', '_'), ('\u2028', 'L'), ('\u2029', 'P')]

/-- The escape of a character between double quotes, if it needs one. -/
def escape? (c : Char) : Option (List Char) :=
  match letters.lookup c with
  | some letter => some ['\\', letter]
  | none =>
    if 0x20 ≤ c.toNat && c.toNat ≤ 0x7E then none
    else some (Text.codeEscape true c.toNat).toList

/-- Breaks a scalar between double quotes before a character: the line ends with a backslash, and
a blank at the start of the next line has one before it. -/
def breakBefore (p : Pen) (column : Nat) (next : Option Char) : Pen :=
  let p := (p.put ['\\']).fold column
  if next == some ' ' then p.put ['\\'] else p

/-- Writes the characters between double quotes, with those that are waiting to be written before
them.  The line may break at a blank and behind an escape, but not next to a quote. -/
def doubleChars (mayFold : Bool) (column : Nat) :
    Bool → List Char → List Char → Pen → Pen
  | _, waiting, [], p => p.put waiting
  | first, waiting, c :: rest, p =>
    let inside := !first && !rest.isEmpty && mayFold
    match escape? c with
    | some e =>
      let p := (p.put waiting).put e
      let p := if inside && lineWidth + 1 < p.column then p.breakBefore column rest.head? else p
      doubleChars mayFold column false [] rest p
    | none =>
      if inside && (c == ' ' || waiting.isEmpty) && lineWidth < p.column + waiting.length then
        doubleChars mayFold column false [c] rest ((p.put waiting).breakBefore column (some c))
      else doubleChars mayFold column false (waiting ++ [c]) rest p

/-- Writes a scalar between double quotes. -/
def double (p : Pen) (mayFold : Bool) (column : Nat) (s : String) : Pen :=
  (doubleChars mayFold column true [] s.toList (p.word "\"")).closeMark "\""

end Pen

end TreeLint.Yaml
