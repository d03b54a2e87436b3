/-
From a text to its tokens.

A node that may turn out to be a key is remembered with the place of its token
until its line ends, a bounded number of characters has passed, or its turn is
over; when a colon follows in time, the mark of a key is put before it.  Outside
of brackets the columns of items and keys open blocks, and a line that starts
further to the left closes them.

A text may go wrong behind tokens that are well formed.  `Scan` keeps these tokens
beside the problem, so that a reader meets the problem only if it gets so far; a
token is among them once no mark can come before it any more.
-/
import TreeLint.Yaml.Scalar.Block
import TreeLint.Yaml.Scalar.Quoted
import TreeLint.Yaml.Token
namespace TreeLint.Yaml

/-- A node that may be a key. -/
structure KeyPlace where
  /-- The number of tokens before the node. -/
  token : Nat
  /-- Whether the node has to be a key, because it starts a line of a mapping. -/
  required : Bool
  /-- Where the node starts. -/
  start : Cursor

/-- The greatest number of characters from the start of a key to its colon. -/
def longestKey : Nat := 1024

/-- A text of which a part has been cut into tokens. -/
structure Stream where
  /-- The place behind the part. -/
  cursor : Cursor
  /-- The tokens of the part. -/
  tokens : Array Token := #[]
  /-- The number of brackets and braces that are open. -/
  flow : Nat := 0
  /-- The column of the innermost block; before the first block it is negative. -/
  indent : Int := -1
  /-- The columns of the blocks around it. -/
  outer : List Int := []
  /-- Whether a key may start at the place. -/
  keyAllowed : Bool := true
  /-- The nodes that may be keys, by the number of brackets around them. -/
  keys : List (Nat × KeyPlace) := []

namespace Stream

/-- Whether the place is between brackets. -/
def inFlow (s : Stream) : Bool := s.flow != 0

/-- The column of the place. -/
def column (s : Stream) : Int := s.cursor.column

/-- The stream with one more token, and the place behind it. -/
def push (s : Stream) (t : Token) (behind : Cursor) : Stream :=
  { s with tokens := s.tokens.push t, cursor := behind }

/-! ### Nodes that may be keys -/

/-- Whether a node can no longer be a key. -/
def isStale (s : Stream) (k : KeyPlace) : Bool :=
  k.start.line != s.cursor.line || s.cursor.index - k.start.index > longestKey

/-- Forgets the nodes that can no longer be keys; one that has to be a key is missed. -/
def dropStale (s : Stream) : Except Problem Stream :=
  if s.keys.any (fun k => s.isStale k.2 && k.2.required) then .error .malformed
  else .ok { s with keys := s.keys.filter (fun k => !s.isStale k.2) }

/-- Forgets the node at the innermost level; one that has to be a key is missed. -/
def dropKey (s : Stream) : Except Problem Stream :=
  if s.keys.any (fun k => k.1 == s.flow && k.2.required) then .error .malformed
  else .ok { s with keys := s.keys.filter (·.1 != s.flow) }

/-- Remembers the node that starts here as one that may be a key. -/
def saveKey (s : Stream) : Except Problem Stream :=
  if s.keyAllowed then do
    let s ← s.dropKey
    let required := !s.inFlow && s.indent == s.column
    return { s with keys := (s.flow, ⟨s.tokens.size, required, s.cursor⟩) :: s.keys }
  else .ok s

/-! ### Blocks -/

/-- The blocks that stay open at a column: the innermost, those around it, and the number of
blocks that end. -/
def closeTo (column : Int) : Int → List Int → Int × List Int × Nat
  | indent, [] => (indent, [], 0)
  | indent, next :: outer =>
    if column < indent then
      let (i, o, n) := closeTo column next outer
      (i, o, n + 1)
    else (indent, next :: outer, 0)

/-- Ends the blocks that lie to the right of a column. -/
def unwind (s : Stream) (column : Int) : Stream :=
  if s.inFlow then s
  else
    let (indent, outer, count) := closeTo column s.indent s.outer
    { s with indent := indent, outer := outer
             tokens := s.tokens ++ Array.replicate count Token.blockEnd }

/-- Opens a block at a column to the right of the innermost one, with a token put at a place. -/
def openBlock (s : Stream) (t : Token) (column : Int) (place : Nat) : Stream :=
  if s.indent < column then
    { s with outer := s.indent :: s.outer, indent := column
             tokens := s.tokens.insertIdxIfInBounds place t }
  else s

/-- Opens a block for an item or key that is marked, where one may start. -/
def openMarked (s : Stream) (t : Token) : Except Problem Stream :=
  if s.inFlow then .ok s
  else if s.keyAllowed then .ok (s.openBlock t s.column s.tokens.size)
  else .error .malformed

/-! ### Tokens -/

/-- A token that ends all blocks. -/
def boundary (s : Stream) (t : Token) (behind : Cursor) : Except Problem Stream := do
  let s ← (s.unwind (-1)).dropKey
  return { s.push t behind with keyAllowed := false }

/-- An opening bracket. -/
def opening (s : Stream) (t : Token) : Except Problem Stream := do
  let s ← s.saveKey
  return { s.push t s.cursor.next with flow := s.flow + 1, keyAllowed := true }

/-- A closing bracket. -/
def closing (s : Stream) (t : Token) : Except Problem Stream := do
  let s ← s.dropKey
  if s.flow == 0 then throw .malformed
  return { s.push t s.cursor.next with flow := s.flow - 1, keyAllowed := false }

/-- A comma between brackets. -/
def comma (s : Stream) : Except Problem Stream := do
  let s ← s.dropKey
  return { s.push .comma s.cursor.next with keyAllowed := true }

/-- The mark of an item. -/
def item (s : Stream) : Except Problem Stream := do
  let s ← s.openMarked .listStart
  let s ← s.dropKey
  return { s.push .item s.cursor.next with keyAllowed := true }

/-- The mark of a key. -/
def markedKey (s : Stream) : Except Problem Stream := do
  let s ← s.openMarked .mappingStart
  let s ← s.dropKey
  return { s.push .key s.cursor.next with keyAllowed := !s.inFlow }

/-- The mark of a value: the node remembered at this level is its key. -/
def value (s : Stream) : Except Problem Stream :=
  match s.keys.lookup s.flow with
  | some k =>
    let s := { s with keys := s.keys.filter (·.1 != s.flow)
                      tokens := s.tokens.insertIdxIfInBounds k.token .key }
    let s := if s.inFlow then s else s.openBlock .mappingStart k.start.column k.token
    .ok { s.push .value s.cursor.next with keyAllowed := false }
  | none => do
    let s ← s.openMarked .mappingStart
    let s ← s.dropKey
    return { s.push .value s.cursor.next with keyAllowed := !s.inFlow }

/-- A token that may be a key or belong to one. -/
def node (s : Stream) (read : Cursor → Except Problem (Token × Cursor)) :
    Except Problem Stream := do
  let s ← s.saveKey
  let (t, behind) ← read s.cursor
  return { s.push t behind with keyAllowed := false }

/-- A scalar between quotes. -/
def quoted (s : Stream) (double : Bool) : Except Problem Stream :=
  s.node (fun c => (Quoted.read double c).map (fun r => (.scalar false (String.ofList r.1), r.2)))

/-- A block scalar. -/
def block (s : Stream) (folded : Bool) : Except Problem Stream := do
  let s ← s.dropKey
  let (text, behind) ← Block.read folded s.indent s.cursor
  return { s.push (.scalar false (String.ofList text)) behind with keyAllowed := true }

/-- A plain scalar; if it ends with its line, a key may follow. -/
def plain (s : Stream) : Except Problem Stream := do
  let s ← s.saveKey
  let found := Plain.read s.inFlow s.indent s.cursor
  return { s.push (.scalar true (String.ofList found.text)) found.behind with
    keyAllowed := found.endsLine }

/-- The place of the next token, behind blanks, comments and line ends; a line end allows a key
outside of brackets. -/
def toNext : Nat → Stream → Stream
  | 0, s => s
  | fuel + 1, s =>
    let c := s.cursor.passBlanks
    let c := if c.peek? == some '#' then c.passLine else c
    match c.lineEnd? with
    | some (_, c) => toNext fuel { s with cursor := c, keyAllowed := s.keyAllowed || !s.inFlow }
    | none => { s with cursor := c }

/-- Reads the token that starts with a character. -/
def token (s : Stream) (ch : Char) : Except Problem Stream :=
  let c := s.cursor
  let marks := s.inFlow || endsWord (c.peekAt? 1)
  if ch == '%' && c.column == 0 then do
    let (d, behind) ← Token.readDirective c.next
    s.boundary (.directive d) behind
  else if c.column == 0 && c.startsWith '-' then s.boundary .documentStart (c.skip 3)
  else if c.column == 0 && c.startsWith '.' then s.boundary .documentEnd (c.skip 3)
  else if ch == '[' then s.opening .bracketOpen
  else if ch == '\x7b' then s.opening .braceOpen
  else if ch == ']' then s.closing .bracketClose
  else if ch == '\x7d' then s.closing .braceClose
  else if ch == ',' then s.comma
  else if ch == '-' && endsWord (c.peekAt? 1) then s.item
  else if ch == '?' && marks then s.markedKey
  else if ch == ':' && marks then s.value
  else if ch == '*' then
    s.node (fun c => (Token.readAnchor c.next).map (fun r => (.alias r.1, r.2)))
  else if ch == '&' then
    s.node (fun c => (Token.readAnchor c.next).map (fun r => (.anchor r.1, r.2)))
  else if ch == '!' then s.node Token.readTag
  else if ch == '|' && !s.inFlow then s.block false
  else if ch == '>' && !s.inFlow then s.block true
  else if ch == '\'' then s.quoted false
  else if ch == '"' then s.quoted true
  else if Plain.canStart s.inFlow c then s.plain
  else .error .malformed

/-- The number of tokens before which no mark can be put any more: a node that may still be a key
holds back its token and all behind it. -/
def settled (s : Stream) : Nat :=
  ((s.keys.filter (fun k => !s.isStale k.2)).map (fun k => k.2.token)).foldl min s.tokens.size

/-- Reads the next token with the ends of blocks before it, and tells whether there was one; at the
end of the text all blocks end. -/
def step (s : Stream) : Except Problem (Bool × Stream) := do
  let s ← (s.toNext (s.cursor.rest.length + 1)).dropStale
  let s := s.unwind s.column
  match s.cursor.peek? with
  | none => return (false, ← (s.unwind (-1)).dropKey)
  | some ch => return (true, ← s.token ch)

end Stream

/-- The tokens of a text, up to the place where it goes wrong if it does. -/
structure Scan where
  /-- The tokens. -/
  tokens : List Token
  /-- What is wrong behind them. -/
  problem : Option Problem := none

namespace Scan

/-- Reads the tokens from a place to the end of the text. -/
def finish : Nat → Stream → Scan
  | 0, s => ⟨s.tokens.toList, some .malformed⟩
  | fuel + 1, s =>
    match s.step with
    | .error problem => ⟨s.tokens.toList.take s.settled, some problem⟩
    | .ok (true, s) => finish fuel s
    | .ok (false, s) => ⟨s.tokens.toList, none⟩

/-- The tokens of a text; a mark at its start is skipped. -/
def ofText (text : List Char) : Scan :=
  let c := Cursor.start text
  let c := if c.peek? == some byteOrderMark then c.next else c
  finish (text.length + 1) { cursor := c }

end Scan

end TreeLint.Yaml
