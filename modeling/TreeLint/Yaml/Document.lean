/-
From the tokens of a text to its one document.

A node may be given a name and stand for itself elsewhere under that name, also
within itself; a name is given once, and before it is used.  A node that is
missing is an empty scalar.  `Document.ofScan` reads a whole text: it holds at most
one document, and nothing but marks of its end may follow.
-/
import TreeLint.Yaml.Node
import TreeLint.Yaml.Token.Stream
namespace TreeLint.Yaml

/-- What is left to read, and what has been read. -/
structure Outline where
  /-- The tokens that are left. -/
  tokens : List Token
  /-- What is wrong behind them. -/
  problem : Option Problem
  /-- The starts of tags that handles stand for. -/
  handles : List (String × String) := []
  /-- The nodes that have names. -/
  named : List (String × Place) := []
  /-- The nodes that have been read. -/
  nodes : Graph := #[]

/-- A reader of nodes. -/
abbrev Reading := StateT Outline (Except Problem)

namespace Reading

/-- The next token, if the text does not end. -/
def peek : Reading (Option Token) := do
  let o ← get
  match o.tokens, o.problem with
  | t :: _, _ => return some t
  | [], some problem => throw problem
  | [], none => return none

/-- Passes the next token. -/
def advance : Reading Unit :=
  modify (fun o => { o with tokens := o.tokens.tail })

/-- The text is not well formed. -/
def refuse {α : Type} : Reading α := throw .malformed

/-- Passes the next token if it is a certain one, and tells whether it is. -/
def accept (t : Token) : Reading Bool := do
  if (← peek) == some t then
    advance
    return true
  else return false

/-- Passes a token that has to come next. -/
def expect (t : Token) : Reading Unit := do
  if !(← accept t) then refuse

/-- Whether one of some tokens comes next. -/
def isNext (ts : List Token) : Reading Bool := do
  return (← peek).any ts.contains

/-! ### Names and tags -/

/-- The tag that a handle and a suffix make. -/
def fullTag (handle : Option String) (suffix : String) : Reading String := do
  match handle with
  | none => return suffix
  | some h =>
    match (← get).handles.lookup h with
    | some start => return start ++ suffix
    | none => refuse

/-- Reads a name, if there is one. -/
def anchor : Reading (Option String) := do
  match ← peek with
  | some (.anchor name) =>
    advance
    return some name
  | _ => return none

/-- Reads a tag, if there is one; it is written out only later. -/
def tag : Reading (Option (Option String × String)) := do
  match ← peek with
  | some (.tag handle suffix) =>
    advance
    return some (handle, suffix)
  | _ => return none

/-- Reads the name and the tag of a node, in any order. -/
def properties : Reading (Option String × Option String) := do
  let (name, t) ← match ← anchor with
    | some name => pure (some name, ← tag)
    | none =>
      match ← tag with
      | some t => pure (← anchor, some t)
      | none => pure (none, none)
  let full ← match t with
    | some (handle, suffix) => some <$> fullTag handle suffix
    | none => pure none
  return (name, full)

/-- The tag that asks for the kind that a node would have without a tag. -/
def anyTag : String := "!"

/-- The kind of a scalar. -/
def scalarTag (full : Option String) (plain : Bool) (text : String) : Tag :=
  match full with
  | none => if plain then Tag.ofText text else .string
  | some full => if full == anyTag then Tag.ofMarked text else Tag.ofName full

/-- The kind of a list or mapping. -/
def collectionTag (full : Option String) (default : Tag) : Tag :=
  match full with
  | none => default
  | some full => if full == anyTag then default else Tag.ofName full

/-- Gives a name to the node at a place. -/
def bindName (name : Option String) (p : Place) : Reading Unit :=
  match name with
  | some name => modify (fun o => { o with named := (name, p) :: o.named })
  | none => pure ()

/-- Refuses a name that has been given. -/
def checkName (name : Option String) : Reading Unit := do
  match name with
  | some name => if ((← get).named.lookup name).isSome then refuse
  | none => pure ()

/-! ### Nodes -/

/-- Adds a node to those that have been read. -/
def add (n : Node) : Reading Place := do
  let p := (← get).nodes.size
  modify (fun o => { o with nodes := o.nodes.push n })
  return p

/-- Adds a node that may have a name. -/
def addNamed (name : Option String) (n : Node) : Reading Place := do
  let p ← add n
  bindName name p
  return p

/-- Says what the node at a place consists of. -/
def fill (p : Place) (shape : Shape) : Reading Unit :=
  modify (fun o => { o with nodes := o.nodes.setShape p shape })

/-- Adds the node that stands where the text has none. -/
def addEmpty : Reading Place := add Node.empty

/-- The problem with nodes that lie too deep. -/
def tooDeep : Problem := .fault (.raised (.other "RecursionError") [])

section

variable [Machine]

mutual

/-- Reads a node at a depth.  Blocks may not start between brackets, and items without an
indentation of their own only behind a key. -/
def node : Nat → Nat → Bool → Bool → Reading Place
  | 0, _, _, _ => refuse
  | fuel + 1, depth, block, behindKey => do
    if Machine.documentDepth < depth then throw tooDeep
    match ← peek with
    | some (.alias name) =>
      advance
      match (← get).named.lookup name with
      | some p => return p
      | none => refuse
    | _ =>
      let (name, full) ← properties
      let next ← peek
      checkName name
      let listTag := collectionTag full .list
      let mappingTag := collectionTag full .mapping
      match next with
      | some (.scalar plain text) =>
        advance
        addNamed name ⟨scalarTag full plain text, .scalar text⟩
      | next =>
        if behindKey && next == some .item then
          let p ← addNamed name ⟨listTag, .list []⟩
          fill p (.list (← looseItems fuel (depth + 1)))
          return p
        else if next == some .bracketOpen then
          advance
          let p ← addNamed name ⟨listTag, .list []⟩
          fill p (.list (← bracketItems fuel (depth + 1) true))
          return p
        else if next == some .braceOpen then
          advance
          let p ← addNamed name ⟨mappingTag, .mapping []⟩
          fill p (.mapping (← braceEntries fuel (depth + 1) true))
          return p
        else if block && next == some .listStart then
          advance
          let p ← addNamed name ⟨listTag, .list []⟩
          fill p (.list (← blockItems fuel (depth + 1)))
          return p
        else if block && next == some .mappingStart then
          advance
          let p ← addNamed name ⟨mappingTag, .mapping []⟩
          fill p (.mapping (← blockEntries fuel (depth + 1)))
          return p
        else if name.isSome || full.isSome then
          addNamed name ⟨scalarTag full true "", .scalar ""⟩
        else refuse

/-- Reads a node, or the empty one if one of some tokens comes next. -/
def nodeUnless : Nat → Nat → Bool → Bool → List Token → Reading Place
  | 0, _, _, _, _ => refuse
  | fuel + 1, depth, block, behindKey, ends => do
    if ← isNext ends then addEmpty else node fuel depth block behindKey

/-- Reads the value of a key, which is the empty node if there is no mark of a value. -/
def valueUnless : Nat → Nat → Bool → Bool → List Token → Reading Place
  | 0, _, _, _, _ => refuse
  | fuel + 1, depth, block, behindKey, ends => do
    if ← accept .value then nodeUnless fuel depth block behindKey ends else addEmpty

/-- Reads the items of an indented list and its end. -/
def blockItems : Nat → Nat → Reading (List Place)
  | 0, _ => refuse
  | fuel + 1, depth => do
    if ← accept .item then
      let p ← nodeUnless fuel depth true false [.item, .blockEnd]
      return p :: (← blockItems fuel depth)
    else
      expect .blockEnd
      return []

/-- Reads the items of a list that has no indentation of its own. -/
def looseItems : Nat → Nat → Reading (List Place)
  | 0, _ => refuse
  | fuel + 1, depth => do
    if ← accept .item then
      let p ← nodeUnless fuel depth true false [.item, .key, .value, .blockEnd]
      return p :: (← looseItems fuel depth)
    else return []

/-- Reads the entries of an indented mapping and its end. -/
def blockEntries : Nat → Nat → Reading (List (Place × Place))
  | 0, _ => refuse
  | fuel + 1, depth => do
    if ← accept .key then
      let k ← nodeUnless fuel depth true true [.key, .value, .blockEnd]
      let v ← valueUnless fuel depth true true [.key, .value, .blockEnd]
      return (k, v) :: (← blockEntries fuel depth)
    else
      expect .blockEnd
      return []

/-- Reads the items of a list between brackets and the closing one.  A key makes an item a mapping
of one entry. -/
def bracketItems : Nat → Nat → Bool → Reading (List Place)
  | 0, _, _ => refuse
  | fuel + 1, depth, first => do
    if ← accept .bracketClose then return []
    if !first then expect .comma
    if ← accept .key then
      let p ← add ⟨.mapping, .mapping []⟩
      let k ← nodeUnless fuel (depth + 1) false false [.value, .comma, .bracketClose]
      let v ← valueUnless fuel (depth + 1) false false [.comma, .bracketClose]
      fill p (.mapping [(k, v)])
      return p :: (← bracketItems fuel depth false)
    else if ← accept .bracketClose then return []
    else
      let p ← node fuel depth false false
      return p :: (← bracketItems fuel depth false)

/-- Reads the entries of a mapping between braces and the closing one.  A node without the mark of
a key is a key without a value. -/
def braceEntries : Nat → Nat → Bool → Reading (List (Place × Place))
  | 0, _, _ => refuse
  | fuel + 1, depth, first => do
    if ← accept .braceClose then return []
    if !first then expect .comma
    if ← accept .key then
      let k ← nodeUnless fuel depth false false [.value, .comma, .braceClose]
      let v ← valueUnless fuel depth false false [.comma, .braceClose]
      return (k, v) :: (← braceEntries fuel depth false)
    else if ← accept .braceClose then return []
    else
      let k ← node fuel depth false false
      return (k, ← addEmpty) :: (← braceEntries fuel depth false)

end

/-! ### Documents -/

/-- The handles that need no directive. -/
def defaultHandles : List (String × String) := [(anyTag, anyTag), ("!!", Tag.common)]

/-- The handle that a directive sets. -/
def handleOf? : Directive → Option (String × String)
  | .handle name start => some (name, start)
  | _ => none

/-- Whether a directive tells the version. -/
def tellsVersion : Directive → Bool
  | .version .. => true
  | _ => false

/-- Whether a directive may follow others: there is at most one version, which has to be a known
one, and each handle is set once. -/
def mayFollow (d : Directive) (earlier : List Directive) : Bool :=
  match d with
  | .version major _ => !earlier.any tellsVersion && major == 1
  | .handle name _ => ((earlier.filterMap handleOf?).lookup name).isNone
  | .other => true

/-- Reads directives, and lists them with earlier ones, the last one first. -/
def directives : Nat → List Directive → Reading (List Directive)
  | 0, _ => refuse
  | fuel + 1, earlier => do
    match ← peek with
    | some (.directive d) =>
      advance
      if mayFollow d earlier then directives fuel (d :: earlier) else refuse
    | _ => return earlier

/-- Reads what stands before the node of a marked document. -/
def openDocument (fuel : Nat) : Reading Unit := do
  let found ← directives fuel []
  expect .documentStart
  modify (fun o => { o with handles := found.filterMap handleOf? ++ defaultHandles })

/-- Passes the marks of the end of a document. -/
def passEnds : Nat → Reading Unit
  | 0 => refuse
  | fuel + 1 => do
    if ← accept .documentEnd then passEnds fuel

/-- Reads the end of the text; there may be no second document. -/
def closeDocument (fuel : Nat) : Reading Unit := do
  passEnds fuel
  if (← peek).isSome then
    let _ ← directives fuel []
    let _ ← peek
    refuse

/-- Whether a token ends a document before its node. -/
def endsDocument : Option Token → Bool
  | none | some .documentStart | some .documentEnd | some (.directive _) => true
  | _ => false

/-- Whether a token stands before the node of a marked document. -/
def opensDocument : Token → Bool
  | .directive _ | .documentStart => true
  | _ => false

/-- Reads the one document: the place of its node, if there is a document. -/
def document (fuel : Nat) : Reading (Option Place) := do
  match ← peek with
  | none => return none
  | some t =>
    let root ←
      if opensDocument t then do
        openDocument fuel
        if endsDocument (← peek) then addEmpty else node fuel 1 true false
      else do
        modify (fun o => { o with handles := defaultHandles })
        node fuel 1 true false
    closeDocument fuel
    return some root

end

end Reading

/-- The document of a text. -/
structure Document where
  /-- The nodes of the text. -/
  graph : Graph
  /-- The place of the outermost node, if there is a document. -/
  root : Option Place

namespace Document

variable [Machine]

/-- The document that the tokens of a text make. -/
def ofScan (scan : Scan) : Except Problem Document := do
  let start : Outline := { tokens := scan.tokens, problem := scan.problem }
  let (root, o) ← (Reading.document (4 * scan.tokens.length + 4)).run start
  return ⟨o.nodes, root⟩

/-- A text with all line ends of two characters, and those of the other one, made alike. -/
def unifiedLines : List Char → List Char
  | '\r' :: '\n' :: rest => '\n' :: unifiedLines rest
  | '\r' :: rest => '\n' :: unifiedLines rest
  | c :: rest => c :: unifiedLines rest
  | [] => []

/-- The document in a text. -/
def ofText (text : String) : Except Problem Document :=
  let s := unifiedLines text.toList
  if s.all isReadable then ofScan (Scan.ofText s) else .error .malformed

end Document

end TreeLint.Yaml
