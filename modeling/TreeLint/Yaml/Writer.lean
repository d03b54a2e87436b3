/-
Values as structured text.

Lists and mappings that are not empty are written as blocks, with the items of a
list that is a value of a key not indented further, and the keys of a mapping
are in order if they can be compared.  Texts are plain where they would be read
back as texts, between single quotes where these can hold them, and otherwise
between double quotes.
-/
import TreeLint.Yaml.Cursor
import TreeLint.Yaml.Pen
import TreeLint.Yaml.Tag
namespace TreeLint.Yaml

/-! ### Scalars -/

/-- Floats: positional from `0.0001` to below `10 ^ 16`, otherwise with a point and a signed
exponent of at least two digits. -/
def floatLayout : Decimal.Layout where
  leastPoint := -3
  greatestPoint := 16
  fullMantissa := true
  plus := "+"
  exponentWidth := 2
  notANumber := ".nan"
  infinity := ".inf"

/-- The text of a foreign value that has one. -/
def foreignText (f : Foreign) : String := f.text.toOption.getD ""

/-- The kind and the text of a scalar. -/
def scalar? : Value → Option (Tag × String)
  | .null => some (.null, "null")
  | .bool b => some (.bool, if b then "true" else "false")
  | .int n => some (.int, toString n)
  | .float x => some (.float, floatLayout.render x)
  | .string s => some (.string, s)
  | .foreign f => some (.timestamp, foreignText f)
  | .list _ | .mapping _ | .set _ | .pair .. => none

/-- Whether a character is a blank or a line end. -/
def isSpacing (c : Char) : Bool := c == ' ' || c == '\n'

/-- Whether a character is written as it is only between double quotes as an escape. -/
def isSpecial (c : Char) : Bool := !(c == '\n' || (0x20 ≤ c.toNat && c.toNat ≤ 0x7E))

/-- Whether two characters stand next to each other in a text. -/
def hasPair (a b : Char) : List Char → Bool
  | x :: y :: rest => (x == a && y == b) || hasPair a b (y :: rest)
  | _ => false

/-- Whether single quotes can hold a text. -/
def allowsSingle (s : List Char) : Bool :=
  !s.any isSpecial && !hasPair '\n' ' ' s && !hasPair ' ' '\n' s

/-- The characters that may not start a plain scalar. -/
def openers : List Char :=
  ['#', ',', '[', ']', '\x7b', '\x7d', '&', '*', '!', '|', '>', '\'', '"', '%', '@', '\x60']

/-- Whether the start of a text would not be read as that of a plain scalar. -/
def opensOtherwise (s : List Char) : Bool :=
  ['-', '-', '-'].isPrefixOf s || ['.', '.', '.'].isPrefixOf s ||
    match s with
    | [] => false
    | c :: rest =>
      openers.contains c ||
        ((c == '-' || c == '?' || c == ':') && (rest.isEmpty || rest.head?.any isSpacing))

/-- Whether a colon that ends a word or a comment stands behind the first character of a text. -/
def holdsIndicator : List Char → Bool
  | a :: b :: rest =>
    (b == ':' && (rest.isEmpty || rest.head?.any isSpacing)) || (b == '#' && isSpacing a) ||
      holdsIndicator (b :: rest)
  | _ => false

/-- Whether a text may be written without quotes. -/
def allowsPlain (s : List Char) : Bool :=
  !s.any isSpecial && !s.contains '\n' && !s.head?.any isSpacing && !s.getLast?.any isSpacing &&
    !opensOtherwise s && !holdsIndicator s

/-- Writes a scalar.  A plain one has to have its kind by its text; one that is a key on a line is
not empty, has one line and is not folded. -/
def writeScalar (tag : Tag) (text : String) (isKey : Bool) (column : Nat) (p : Pen) : Pen :=
  let s := text.toList
  let lines := s.contains '\n'
  let ownKind := tag != .string || Tag.ofText text == .string
  if ownKind && !(isKey && (s.isEmpty || lines)) && allowsPlain s then
    p.plain (!isKey) column text
  else if allowsSingle s && !(isKey && lines) then p.single (!isKey) column text
  else p.double (!isKey) column text

/-! ### Keys -/

/-- The number of characters of the short name of a kind. -/
def tagLength : Tag → Nat
  | .null | .bool => 6
  | .float => 7
  | .timestamp => 11
  | _ => 5

/-- The length, with the name of its kind, from which on a key does not stand on the line of its
value. -/
def keyLimit : Nat := 128

/-- Whether a key can stand on the line of its value. -/
def isSimpleKey (k : Value) : Bool :=
  match scalar? k with
  | some (tag, text) =>
    tagLength tag + text.length < keyLimit && text != "" && !text.toList.any isBreak
  | none => false

/-- The comparison of two keys that can be compared. -/
def keyAtMost (a b : Value) : Bool :=
  match a, b with
  | .string s, .string t => s ≤ t
  | _, _ =>
    match a.quotient?, b.quotient? with
    | some x, some y => if x.2 = 0 ∧ y.2 = 0 then x.1 ≤ y.1 else x.1 * y.2 ≤ y.1 * x.2
    | _, _ => true

/-- Whether a value is a text. -/
def isString : Value → Bool
  | .string _ => true
  | _ => false

/-- Entries in the order of their keys, if all are texts or all are numbers. -/
def sortEntries (entries : List (Value × Value)) : List (Value × Value) :=
  if entries.all (fun e => isString e.1) || entries.all (fun e => e.1.quotient?.isSome) then
    entries.mergeSort (fun a b => keyAtMost a.1 b.1)
  else entries

/-! ### Blocks -/

/-- The columns by which a block stands to the right of the one around it. -/
def indentStep : Nat := 2

/-- The tag of a set. -/
def setTag : String := "!!set"

mutual

/-- A value with all mappings and sets in it in order. -/
def sortKeys : Value → Value
  | .list items => .list (sortItems items)
  | .mapping entries => .mapping (sortEntries (sortValues entries))
  | .set members => .set ((sortEntries (members.map (fun v => (v, .null)))).map (·.1))
  | .pair first second => .pair (sortKeys first) (sortKeys second)
  | v => v

/-- The items of a list with all mappings in them in order. -/
def sortItems : List Value → List Value
  | [] => []
  | v :: rest => sortKeys v :: sortItems rest

/-- Entries with all mappings in their values in order. -/
def sortValues : List (Value × Value) → List (Value × Value)
  | [] => []
  | (k, v) :: rest => (k, sortKeys v) :: sortValues rest

end

/-- Writes a key of a block at a column, and the mark behind it. -/
def writeKey (column : Nat) (k : Value) (p : Pen) : Pen :=
  let p := p.indentTo column
  let (tag, text) := (scalar? k).getD (.null, "null")
  if isSimpleKey k then (writeScalar tag text true (column + indentStep) p).closeMark ":"
  else
    let p := writeScalar tag text false (column + indentStep) (p.blockMark "?")
    (p.indentTo column).blockMark ":"

/-- Writes the members of a set at a column, each as a key without value. -/
def writeMembers (column : Nat) : List Value → Pen → Pen
  | [], p => p
  | k :: rest, p =>
    writeMembers column rest
      (writeScalar .null "null" false (column + indentStep) (writeKey column k p))

mutual

/-- Writes a value in a block at a column, as a value of a mapping or not. -/
def writeValue (column : Nat) (inMapping : Bool) : Value → Pen → Pen
  | .list items, p =>
    if items.isEmpty then (p.word "[").closeMark "]"
    else writeItems (if inMapping && !p.fresh then column else column + indentStep) items p
  | .mapping entries, p =>
    if entries.isEmpty then (p.word "\x7b").closeMark "\x7d"
    else writeEntries (column + indentStep) entries p
  | .set members, p =>
    let p := p.word setTag
    if members.isEmpty then (p.word "\x7b").closeMark "\x7d"
    else writeMembers (column + indentStep) members p
  | .pair first second, p =>
    let column := if inMapping && !p.fresh then column else column + indentStep
    let p := writeValue column false first ((p.indentTo column).blockMark "-")
    writeValue column false second ((p.indentTo column).blockMark "-")
  | .null, p => writeScalar .null "null" false (column + indentStep) p
  | .bool b, p =>
    writeScalar .bool (if b then "true" else "false") false (column + indentStep) p
  | .int n, p => writeScalar .int (toString n) false (column + indentStep) p
  | .float x, p => writeScalar .float (floatLayout.render x) false (column + indentStep) p
  | .string s, p => writeScalar .string s false (column + indentStep) p
  | .foreign f, p => writeScalar .timestamp (foreignText f) false (column + indentStep) p

/-- Writes the items of a list at a column. -/
def writeItems (column : Nat) : List Value → Pen → Pen
  | [], p => p
  | v :: rest, p =>
    writeItems column rest (writeValue column false v ((p.indentTo column).blockMark "-"))

/-- Writes the entries of a mapping at a column. -/
def writeEntries (column : Nat) : List (Value × Value) → Pen → Pen
  | [], p => p
  | (k, v) :: rest, p => writeEntries column rest (writeValue column true v (writeKey column k p))

end

/-! ### Texts -/

/-- The text of a mapping. -/
def writeMapping (entries : List (Value × Value)) : String :=
  let p : Pen :=
    match sortEntries (sortValues entries) with
    | [] => writeValue 0 false (.mapping []) {}
    | entries => writeEntries 0 entries {}
  (p.indentTo 0).text

/-- The reason why there is no text, if there is none. -/
def errorOf : Except TextFault String → Option TextFault
  | .ok _ => none
  | .error why => some why

mutual

/-- Why a value cannot be written, if it cannot: the first reason in it. -/
def obstacle? : Value → Option TextFault
  | .int n => errorOf (Value.decimal n)
  | .foreign f => errorOf f.text
  | .list items | .set items => itemsObstacle? items
  | .mapping entries => entriesObstacle? entries
  | .pair first second => (obstacle? first).or (obstacle? second)
  | _ => none

/-- Why the items of a list cannot be written, if they cannot. -/
def itemsObstacle? : List Value → Option TextFault
  | [] => none
  | v :: rest => (obstacle? v).or (itemsObstacle? rest)

/-- Why entries cannot be written, if they cannot. -/
def entriesObstacle? : List (Value × Value) → Option TextFault
  | [] => none
  | (k, v) :: rest => ((obstacle? k).or (obstacle? v)).or (entriesObstacle? rest)

end

/-- Writes a mapping: what has been written, and the fault that ended it, if there is one. -/
def write (entries : List (Value × Value)) : String × Option Fault :=
  match entriesObstacle? entries with
  | some why => ("", some (.text why))
  | none => (writeMapping entries, none)

end TreeLint.Yaml
