/-
Block scalars: indented lines behind a header.

The header tells whether lines are kept or folded, what becomes of the line ends
at the end, and possibly how far the lines are indented; otherwise the first
line that is not empty tells the indentation.
-/
import TreeLint.Yaml.Cursor
namespace TreeLint.Yaml.Block

/-- What becomes of the line ends behind the last line. -/
inductive Chomping where
  /-- One is kept. -/
  | clip
  /-- None is kept. -/
  | strip
  /-- All are kept. -/
  | keep
deriving DecidableEq, Repr

/-- The chomping that a sign in a header asks for. -/
def chomping? : Option Char → Option Chomping
  | some '+' => some .keep
  | some '-' => some .strip
  | _ => none

/-- The indentation that a digit in a header asks for. -/
def increment? : Option Char → Option Nat
  | some c => if c.isDigit then some (c.toNat - '0'.toNat) else none
  | none => none

/-- Reads a header behind its first character: a sign and a digit in any order, either of which
may be missing. -/
def header (c : Cursor) : Except Problem (Chomping × Option Nat × Cursor) := do
  let (chomping, increment, c) :=
    match chomping? c.peek? with
    | some chomping =>
      match increment? c.next.peek? with
      | some n => (chomping, some n, c.skip 2)
      | none => (chomping, none, c.next)
    | none =>
      match increment? c.peek? with
      | some n =>
        match chomping? c.next.peek? with
        | some chomping => (chomping, some n, c.skip 2)
        | none => (.clip, some n, c.next)
      | none => (.clip, none, c)
  if increment == some 0 || !endsEntry c.peek? then throw .malformed
  return (chomping, increment, ← c.passComment)

/-- Reads empty lines before a scalar: their line ends, the greatest indentation among them and
the first line that is not empty, and the place behind them. -/
def detect : Nat → List Char → Nat → Cursor → List Char × Nat × Cursor
  | 0, found, indent, c => (found.reverse, indent, c)
  | fuel + 1, found, indent, c =>
    if c.peek? == some ' ' then detect fuel found (max indent c.next.column) c.next
    else match c.lineEnd? with
      | some (ch, c) => detect fuel (ch :: found) indent c
      | none => (found.reverse, indent, c)

/-- The place behind the blanks of an indentation, or behind those that there are. -/
def passIndent : Nat → Cursor → Cursor
  | 0, c => c
  | n + 1, c => if c.peek? == some ' ' then passIndent n c.next else c

/-- Reads empty lines within a scalar: their line ends, and the place behind the indentation of
the next line. -/
def breaks (indent : Nat) : Nat → List Char → Cursor → List Char × Cursor
  | 0, found, c => (found.reverse, c)
  | fuel + 1, found, c =>
    let c := passIndent (indent - c.column) c
    match c.lineEnd? with
    | some (ch, c) => breaks indent fuel (ch :: found) c
    | none => (found.reverse, c)

/-- Whether a line starts with something other than a blank. -/
def startsFull (c : Cursor) : Bool := !c.peek?.any isBlank

/-- The characters between two lines: a line end, then those of empty lines.  When lines are
folded, a line end between two lines that are not indented further is a blank or nothing. -/
def joint (folded : Bool) (lineEnd : List Char) (above : Bool) (empty : List Char)
    (below : Cursor) : List Char :=
  if folded && lineEnd == ['\n'] && above && startsFull below then
    if empty.isEmpty then [' '] else empty
  else lineEnd ++ empty

/-- The line ends at the end of a scalar. -/
def ending (chomping : Chomping) (lineEnd empty : List Char) : List Char :=
  match chomping with
  | .strip => []
  | .clip => lineEnd
  | .keep => lineEnd ++ empty

/-- Reads the lines of a scalar. -/
def lines (folded : Bool) (chomping : Chomping) (indent : Nat) :
    Nat → List Char → Cursor → List Char × Cursor
  | 0, found, c => (found, c)
  | fuel + 1, found, c =>
    let line := c.run (fun ch => !isBreak ch)
    let behind := c.passLine
    let lineEnd := (behind.lineEnd?.map (fun e => [e.1])).getD []
    let (empty, below) := breaks indent (behind.rest.length + 1) [] behind.passLineEnd
    if below.column == indent && below.peek?.isSome then
      lines folded chomping indent fuel
        (found ++ line ++ joint folded lineEnd (startsFull c) empty below) below
    else (found ++ line ++ ending chomping lineEnd empty, below)

/-- Reads a block scalar from its first character on, in a block with an indentation. -/
def read (folded : Bool) (blockIndent : Int) (c : Cursor) :
    Except Problem (List Char × Cursor) := do
  let (chomping, increment, c) ← header c.next
  let least := max (blockIndent + 1) 1
  let (empty, indent, c) := match increment with
    | some n =>
      let indent := least.toNat + n - 1
      let (empty, c) := breaks indent (c.rest.length + 1) [] c
      (empty, indent, c)
    | none =>
      let (empty, indent, c) := detect (c.rest.length + 1) [] 0 c
      (empty, max least.toNat indent, c)
  if c.column == indent && c.peek?.isSome then
    return lines folded chomping indent (c.rest.length + 1) empty c
  else return (ending chomping [] empty, c)

end TreeLint.Yaml.Block
