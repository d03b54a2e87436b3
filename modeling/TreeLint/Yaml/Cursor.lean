/-
A place in a text that is being read.

A cursor knows the characters that are left and where it stands: how many
characters lie behind it, on which line it is and in which column.  The
classes of characters that end lines, words and entries are defined here too;
the end of the text belongs to each of them.
-/
import TreeLint.Fault
namespace TreeLint.Yaml

/-- Why a text cannot be read. -/
inductive Problem where
  /-- The text is not well formed. -/
  | malformed
  /-- Something in the text does not stand for a value of its kind. -/
  | fault (fault : Fault)
deriving Repr

/-- The mark that may open a text; it takes no column. -/
def byteOrderMark : Char := '\uFEFF'

/-- Whether a character ends a line. -/
def isBreak (c : Char) : Bool :=
  c == '\n' || c == '\x85' || c == '\u2028' || c == '\u2029'

/-- Whether a character is a blank or a tab. -/
def isBlank (c : Char) : Bool := c == ' ' || c == '\t'

/-- Whether the character that comes next, if any, ends a line. -/
def endsLine : Option Char → Bool
  | none => true
  | some c => isBreak c

/-- Whether the character that comes next, if any, is a blank or ends a line; a tab does not
count. -/
def endsEntry : Option Char → Bool
  | none => true
  | some c => c == ' ' || isBreak c

/-- Whether the character that comes next, if any, ends a word: a blank, a tab or the end of a
line. -/
def endsWord : Option Char → Bool
  | none => true
  | some c => isBlank c || isBreak c

/-- Whether a character may stand in the name of an anchor, a handle or a directive. -/
def isNameChar (c : Char) : Bool := c.isAlphanum || c == '-' || c == '_'

/-- Whether a character may stand in a text at all. -/
def isReadable (c : Char) : Bool :=
  let n := c.toNat
  c == '\t' || c == '\n' || c == '\r' || c == '\x85' || (0x20 ≤ n && n ≤ 0x7E) ||
    (0xA0 ≤ n && n ≤ 0xD7FF) || (0xE000 ≤ n && n ≤ 0xFFFD) || 0x10000 ≤ n

/-- A place in a text. -/
structure Cursor where
  /-- The characters that are left. -/
  rest : List Char
  /-- The number of characters before the place. -/
  index : Nat
  /-- The number of line ends before the place. -/
  line : Nat
  /-- The number of characters before the place on its line. -/
  column : Nat
deriving Repr

namespace Cursor

/-- The start of a text. -/
def start (text : List Char) : Cursor := ⟨text, 0, 0, 0⟩

/-- The character at a place. -/
def peek? (c : Cursor) : Option Char := c.rest.head?

/-- The character some places further on. -/
def peekAt? (c : Cursor) (n : Nat) : Option Char := (c.rest.drop n).head?

/-- The place behind the next character. -/
def next (c : Cursor) : Cursor :=
  match c.rest with
  | [] => c
  | ch :: rest =>
    if isBreak ch then ⟨rest, c.index + 1, c.line + 1, 0⟩
    else ⟨rest, c.index + 1, c.line, if ch = byteOrderMark then c.column else c.column + 1⟩

/-- The place some characters further on. -/
def skip (c : Cursor) : Nat → Cursor
  | 0 => c
  | n + 1 => c.next.skip n

/-- The characters at a place that belong to a class, up to the first that does not. -/
def run (c : Cursor) (p : Char → Bool) : List Char := c.rest.takeWhile p

/-- The place behind the characters that belong to a class. -/
def pass (c : Cursor) (p : Char → Bool) : Cursor := c.skip (c.run p).length

/-- The place behind blanks. -/
def passBlanks (c : Cursor) : Cursor := c.pass (· == ' ')

/-- The place at the end of the line. -/
def passLine (c : Cursor) : Cursor := c.pass (fun ch => !isBreak ch)

/-- The character that a line end stands for, with the place behind it. -/
def lineEnd? (c : Cursor) : Option (Char × Cursor) :=
  match c.peek? with
  | some ch =>
    if isBreak ch then some (if ch == '\x85' then '\n' else ch, c.next) else none
  | none => none

/-- The place behind a line end, if there is one. -/
def passLineEnd (c : Cursor) : Cursor :=
  match c.lineEnd? with
  | some (_, c) => c
  | none => c

/-- Whether three characters of a kind stand at a place, alone as a word. -/
def startsWith (c : Cursor) (mark : Char) : Bool :=
  c.rest.take 3 == [mark, mark, mark] && endsWord (c.peekAt? 3)

/-- Whether a mark between documents stands at a place. -/
def isSeparator (c : Cursor) : Bool := c.startsWith '-' || c.startsWith '.'

/-- The place behind the rest of a line on which only a comment may stand. -/
def passComment (c : Cursor) : Except Problem Cursor :=
  let c := c.passBlanks
  let c := if c.peek? == some '#' then c.passLine else c
  if endsLine c.peek? then .ok c.passLineEnd else .error .malformed

/-- The place behind a character that has to come next. -/
def expect (c : Cursor) (ch : Char) : Except Problem Cursor :=
  if c.peek? == some ch then .ok c.next else .error .malformed

end Cursor

end TreeLint.Yaml
