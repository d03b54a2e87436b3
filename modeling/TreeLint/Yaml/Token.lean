/-
Tokens of a structured text, and the readers of those that carry a name.

Blocks have tokens for their starts and ends although nothing but indentation
marks them in the text.
-/
import TreeLint.Text.Radix
import TreeLint.Yaml.Cursor
namespace TreeLint.Yaml

/-- A line that speaks about a document. -/
inductive Directive where
  /-- The version of the language. -/
  | version (major minor : Nat)
  /-- A handle that stands for the start of tags. -/
  | handle (name start : String)
  /-- Any other directive; it has no meaning. -/
  | other
deriving DecidableEq, Repr

/-- A part of a text. -/
inductive Token where
  /-- A directive. -/
  | directive (d : Directive)
  /-- The mark before a document. -/
  | documentStart
  /-- The mark behind a document. -/
  | documentEnd
  /-- The start of a list whose items stand on lines. -/
  | listStart
  /-- The start of a mapping whose keys stand on lines. -/
  | mappingStart
  /-- The end of an indented list or mapping. -/
  | blockEnd
  /-- The opening bracket of a list. -/
  | bracketOpen
  /-- The closing bracket of a list. -/
  | bracketClose
  /-- The opening brace of a mapping. -/
  | braceOpen
  /-- The closing brace of a mapping. -/
  | braceClose
  /-- The mark before an item on a line. -/
  | item
  /-- The comma between items. -/
  | comma
  /-- The start of a key, marked or not. -/
  | key
  /-- The mark before the value of a key. -/
  | value
  /-- The name of a node that stands elsewhere. -/
  | alias (name : String)
  /-- A name given to a node. -/
  | anchor (name : String)
  /-- A tag, with the handle that its start stands for. -/
  | tag (handle : Option String) (suffix : String)
  /-- A scalar, plain or quoted. -/
  | scalar (plain : Bool) (text : String)
deriving DecidableEq, Repr

namespace Token

/-- Reads a name that may not be empty. -/
def readName (c : Cursor) : Except Problem (String × Cursor) :=
  let name := c.run isNameChar
  if name.isEmpty then .error .malformed else .ok (String.ofList name, c.pass isNameChar)

/-- The characters that may follow the name of an anchor. -/
def anchorEnds : List Char := ['?', ':', ',', ']', '\x7d', '%', '@', '\x60']

/-- Reads the name of an anchor behind its mark. -/
def readAnchor (c : Cursor) : Except Problem (String × Cursor) := do
  let (name, c) ← readName c
  if endsWord c.peek? || c.peek?.any anchorEnds.contains then return (name, c)
  else throw .malformed

/-! ### Tags -/

/-- The characters besides letters and digits that may stand in a tag. -/
def tagMarks : List Char :=
  ['-', ';', '/', '?', ':', '@', '&', '=', '+', '$', ',', '_', '.', '!', '~', '*', '\'', '(', ')',
    '[', ']', '%']

/-- Whether a character may stand in a tag. -/
def isTagChar (c : Char) : Bool := c.isAlphanum || tagMarks.contains c

/-- The bytes of a row of escapes, each a percent sign and two hexadecimal digits, and the
characters behind them. -/
def escapedBytes : List Char → Option (List UInt8 × List Char)
  | '%' :: a :: b :: rest => do
    let n ← Text.ofRadix? 16 [a, b]
    let (bytes, rest) ← escapedBytes rest
    return (n.toUInt8 :: bytes, rest)
  | '%' :: _ => none
  | rest => some ([], rest)

/-- The text that the characters of a tag stand for: a row of escapes is the code of a text. -/
def unescaped : Nat → List Char → Option (List Char)
  | 0, _ => none
  | fuel + 1, s =>
    match s with
    | [] => some []
    | c :: rest =>
      if c == '%' then do
        let (bytes, rest) ← escapedBytes s
        let text ← String.fromUTF8? (ByteArray.mk bytes.toArray)
        return text.toList ++ (← unescaped fuel rest)
      else (unescaped fuel rest).map (c :: ·)

/-- Reads the characters of a tag; there has to be one. -/
def readTagText (c : Cursor) : Except Problem (String × Cursor) :=
  let chars := c.run isTagChar
  if chars.isEmpty then .error .malformed
  else match unescaped (chars.length + 1) chars with
    | some text => .ok (String.ofList text, c.pass isTagChar)
    | none => .error .malformed

/-- Reads a handle: an exclamation mark, alone before a blank or with a name and a second one. -/
def readHandle (c : Cursor) : Except Problem (String × Cursor) := do
  let behind ← c.expect '!'
  if behind.peek? == some ' ' then return ("!", behind)
  else
    let name := behind.run isNameChar
    let c ← (behind.pass isNameChar).expect '!'
    return ("!" ++ String.ofList name ++ "!", c)

/-- Whether the word behind the first character of a tag holds an exclamation mark. -/
def hasHandle (word : List Char) : Bool :=
  (word.takeWhile (fun ch => !endsEntry (some ch))).contains '!'

/-- Reads a tag from its exclamation mark on. -/
def readTag (c : Cursor) : Except Problem (Token × Cursor) := do
  let (handle, suffix, c) ←
    if c.peekAt? 1 == some '<' then do
      let (suffix, c) ← readTagText (c.skip 2)
      pure (none, suffix, ← c.expect '>')
    else if endsWord (c.peekAt? 1) then pure (none, "!", c.next)
    else if hasHandle c.next.rest then do
      let (handle, c) ← readHandle c
      let (suffix, c) ← readTagText c
      pure (some handle, suffix, c)
    else do
      let (suffix, c) ← readTagText c.next
      pure (some "!", suffix, c)
  if endsEntry c.peek? then return (.tag handle suffix, c) else throw .malformed

/-! ### Directives -/

/-- Reads a number of a version. -/
def readNumber (c : Cursor) : Except Problem (Nat × Cursor) :=
  let digits := c.run Char.isDigit
  if digits.isEmpty then .error .malformed
  else if Value.digitLimit < digits.length then
    .error (.fault (.longNumeral digits.length))
  else .ok ((Text.ofRadix? 10 digits).getD 0, c.pass Char.isDigit)

/-- Reads a version. -/
def readVersion (c : Cursor) : Except Problem (Directive × Cursor) := do
  let (major, c) ← readNumber c.passBlanks
  let c ← c.expect '.'
  let (minor, c) ← readNumber c
  if endsEntry c.peek? then return (.version major minor, c) else throw .malformed

/-- Reads a handle and the start of tags that it stands for. -/
def readHandleDirective (c : Cursor) : Except Problem (Directive × Cursor) := do
  let (name, c) ← readHandle c.passBlanks
  if c.peek? != some ' ' then throw .malformed
  let (start, c) ← readTagText c.passBlanks
  if endsEntry c.peek? then return (.handle name start, c) else throw .malformed

/-- Reads a directive behind its percent sign, with the rest of its line. -/
def readDirective (c : Cursor) : Except Problem (Directive × Cursor) := do
  let (name, c) ← readName c
  if !endsEntry c.peek? then throw .malformed
  let (d, c) ←
    if name == "YAML" then readVersion c
    else if name == "TAG" then readHandleDirective c
    else pure (.other, c.passLine)
  return (d, ← c.passComment)

end Token

end TreeLint.Yaml
