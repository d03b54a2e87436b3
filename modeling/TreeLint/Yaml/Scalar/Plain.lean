/-
Plain scalars: texts without quotes.

A plain scalar ends where a comment, an entry of its mapping or list, or a line
that is indented too little begins.  A single line end within it stands for a
blank, and of several line ends the first is dropped.
-/
import TreeLint.Yaml.Cursor
namespace TreeLint.Yaml.Plain

/-- The characters that end a word inside brackets. -/
def flowIndicators : List Char := [',', '?', '[', ']', '\x7b', '\x7d']

/-- The characters that make a colon before them an indicator inside brackets. -/
def flowClosers : List Char := [',', '[', ']', '\x7b', '\x7d']

/-- The characters that open a token of another kind. -/
def indicators : List Char :=
  ['-', '?', ':', ',', '[', ']', '\x7b', '\x7d', '#', '&', '*', '!', '|', '>', '\'', '"', '%', '@',
    '\x60']

/-- Whether a plain scalar can start here, inside brackets or not. -/
def canStart (flow : Bool) (c : Cursor) : Bool :=
  match c.peek? with
  | none => false
  | some ch =>
    (!(isBlank ch || isBreak ch) && !indicators.contains ch) ||
      (!endsWord (c.peekAt? 1) && (ch == '-' || (!flow && (ch == '?' || ch == ':'))))

/-- Whether a colon with this character behind it separates a key from its value. -/
def endsKey (flow : Bool) (behind : Option Char) : Bool :=
  endsWord behind || (flow && behind.any flowClosers.contains)

/-- The characters of a plain scalar up to the next blank, line end or indicator. -/
def word (flow : Bool) : List Char → List Char
  | [] => []
  | ch :: rest =>
    if isBlank ch || isBreak ch || (ch == ':' && endsKey flow rest.head?) ||
        (flow && flowIndicators.contains ch) then []
    else ch :: word flow rest

/-- Line ends and blanks behind the first line end of a gap: the line ends, and the place behind
them.  A mark between documents ends the gap without any. -/
def gapBreaks : Nat → List Char → Cursor → Option (List Char) × Cursor
  | 0, found, c => (some found.reverse, c)
  | fuel + 1, found, c =>
    if c.peek? == some ' ' then gapBreaks fuel found c.next
    else match c.lineEnd? with
      | some (ch, c) => if c.isSeparator then (none, c) else gapBreaks fuel (ch :: found) c
      | none => (some found.reverse, c)

/-- A gap between two words. -/
structure Gap where
  /-- The characters for which the gap stands. -/
  text : List Char
  /-- Whether the gap holds the end of a line. -/
  endsLine : Bool
  /-- The place behind the gap. -/
  behind : Cursor

/-- The characters for which line ends stand: the first is a blank if no other follows. -/
def folded (first : Char) (others : List Char) : List Char :=
  if first != '\n' then first :: others
  else if others.isEmpty then [' ']
  else others

/-- The gap at a place. -/
def gap (c : Cursor) : Gap :=
  let blanks := c.run (· == ' ')
  let c := c.passBlanks
  match c.lineEnd? with
  | none => ⟨blanks, false, c⟩
  | some (first, c) =>
    if c.isSeparator then ⟨[], true, c⟩
    else
      let r := gapBreaks (c.rest.length + 1) [] c
      ⟨(r.1.map (folded first)).getD [], true, r.2⟩

/-- A plain scalar that has been read. -/
structure Found where
  /-- The text of the scalar. -/
  text : List Char
  /-- Whether the scalar is followed by the end of a line. -/
  endsLine : Bool
  /-- The place behind the scalar. -/
  behind : Cursor

/-- Reads words and the gaps between them.  A word on a line of its own has to be indented. -/
def words (flow : Bool) (indent : Int) : Nat → List Char → Found → Found
  | 0, _, found => found
  | fuel + 1, before, found =>
    let c := found.behind
    let w := word flow c.rest
    if c.peek? == some '#' || w.isEmpty then found
    else
      let g := gap (c.skip w.length)
      let found := ⟨found.text ++ before ++ w, g.endsLine, g.behind⟩
      if g.text.isEmpty || g.behind.peek? == some '#' ||
          (!flow && g.behind.column < indent) then found
      else words flow indent fuel g.text found

/-- Reads a plain scalar in a block with an indentation. -/
def read (flow : Bool) (indent : Int) (c : Cursor) : Found :=
  words flow (indent + 1) (c.rest.length + 1) [] ⟨[], false, c⟩

end TreeLint.Yaml.Plain
