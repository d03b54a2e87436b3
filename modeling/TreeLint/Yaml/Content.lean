/-
What the nodes of a document stand for.

Every node that is reached from the outermost one gets a cell.  A scalar has its
value at once; a list or mapping waits until the cell around it is filled, and
those that wait are filled in the order in which they were met, so that nodes may
stand within themselves.  `Content.valueAt` unfolds a cell to a value, and shows a
list or mapping that stands within itself by its brackets alone.
-/
import TreeLint.Value.Members
import TreeLint.Yaml.Document
import TreeLint.Yaml.Merge
import TreeLint.Yaml.Scalar.Meaning
namespace TreeLint.Yaml

/-- What a node stands for; the parts of a cell are cells at other places. -/
inductive Cell where
  /-- A value without parts. -/
  | scalar (value : Value)
  /-- A list. -/
  | list (items : List Place)
  /-- A mapping. -/
  | mapping (entries : List (Value × Place))
  /-- A set. -/
  | set (members : List Value)
  /-- A list of pairs. -/
  | pairs (entries : List (Place × Place))
deriving Repr

namespace Cell

/-- Whether a cell counts as present: zero and what is empty do not. -/
def isPresent : Cell → Bool
  | scalar v => v.isTruthy
  | list items => !items.isEmpty
  | mapping entries => !entries.isEmpty
  | set members => !members.isEmpty
  | pairs entries => !entries.isEmpty

/-- The cell of a kind before its parts are known, if its kind has parts. -/
def ofTag? : Tag → Option Cell
  | .list => some (list [])
  | .mapping => some (mapping [])
  | .set => some (set [])
  | .orderedMapping | .pairs => some (pairs [])
  | _ => none

end Cell

/-! ### Scalars -/

namespace Graph

/-- The text of the node at a place as a scalar.  That of a mapping is the text of the value of its
first key without a name; within `fuel` steps such values have to end. -/
def scalarText (g : Graph) : Nat → Place → Except Problem String
  | 0, _ => .error Reading.tooDeep
  | fuel + 1, p =>
    match g.shapeAt p with
    | .scalar text => .ok text
    | .list _ => .error .malformed
    | .mapping entries =>
      match entries.find? (fun e => g.tagAt e.1 == .nameless) with
      | some e => g.scalarText fuel e.2
      | none => .error .malformed

/-- Whether the node at a place is a scalar. -/
def isScalar (g : Graph) (p : Place) : Bool :=
  match g.shapeAt p with
  | .scalar _ => true
  | _ => false

/-- The value of the node at a place, whose kind has no parts.  A timestamp has to be a scalar. -/
def scalarValue (g : Graph) (p : Place) : Except Problem Value := do
  let tag := g.tagAt p
  match tag with
  | .merge | .nameless | .other _ => throw .malformed
  | _ =>
    let text ← g.scalarText (g.size + 1) p
    if tag == .timestamp && !g.isScalar p then
      throw (scalarFault "TypeError" "expected string or bytes-like object, got 'list'")
    tag.valueOf text

end Graph

/-! ### Cells -/

/-- The cells of a document while they are made. -/
structure Making where
  /-- The nodes. -/
  graph : Graph
  /-- The cells that have been made. -/
  cells : List (Place × Cell) := []
  /-- The places whose cells are not filled yet. -/
  waiting : List Place := []

namespace Making

/-- A step that makes cells. -/
abbrev Step := StateT Making (Except Problem)

/-- The cell at a place, made if it is not there. -/
def visit (p : Place) : Step Cell := do
  let m ← get
  match m.cells.lookup p with
  | some c => return c
  | none =>
    match Cell.ofTag? (m.graph.tagAt p) with
    | some c =>
      set { m with cells := (p, c) :: m.cells, waiting := m.waiting ++ [p] }
      return c
    | none =>
      let c := Cell.scalar (← m.graph.scalarValue p)
      set { m with cells := (p, c) :: m.cells }
      return c

/-- Puts a cell at a place. -/
def put (p : Place) (c : Cell) : Step Unit :=
  modify (fun m => { m with cells := (p, c) :: m.cells })

/-- The value of a key; what has parts is no key. -/
def visitKey (p : Place) : Step Value := do
  match ← visit p with
  | .scalar v => return v
  | _ => throw .malformed

/-- The places of the items of a list. -/
def itemsAt (p : Place) : Step (List Place) := do
  match (← get).graph.shapeAt p with
  | .list items => return items
  | _ => throw .malformed

/-- The entries of a mapping, after it has been freed of keys that merge. -/
def mergedEntriesAt (p : Place) : Step (List (Place × Place)) := do
  match (← get).graph.shapeAt p with
  | .mapping _ =>
    let g ← (← get).graph.flatten p
    modify (fun m => { m with graph := g })
    return g.entriesAt p
  | _ => throw .malformed

/-- Visits the entries of a mapping; of several values for a key the last one counts. -/
def visitEntries (entries : List (Place × Place)) : Step (List (Value × Place)) :=
  entries.foldlM (fun found e => do
    let key ← visitKey e.1
    let _ ← visit e.2
    return Value.insert key e.2 found) []

/-- Visits the items of a list of mappings of one entry each. -/
def visitPairs (items : List Place) : Step (List (Place × Place)) :=
  items.mapM (fun p => do
    match (← get).graph.shapeAt p with
    | .mapping [e] =>
      let _ ← visit e.1
      let _ ← visit e.2
      return e
    | _ => throw .malformed)

/-- Fills the cell at a place. -/
def fill (p : Place) : Step Unit := do
  match (← get).graph.tagAt p with
  | .list =>
    let items ← itemsAt p
    for q in items do
      let _ ← visit q
    put p (.list items)
  | .mapping => put p (.mapping (← visitEntries (← mergedEntriesAt p)))
  | .set => put p (.set ((← visitEntries (← mergedEntriesAt p)).map (·.1)))
  | _ => put p (.pairs (← visitPairs (← itemsAt p)))

/-- Fills the cells that wait, the first one first. -/
def finish : Nat → Step Unit
  | 0 => return
  | fuel + 1 => do
    match (← get).waiting with
    | [] => return
    | p :: rest =>
      modify (fun m => { m with waiting := rest })
      fill p
      finish fuel

end Making

/-! ### Contents -/

/-- What a text stands for. -/
structure Content where
  /-- The cells. -/
  cells : List (Place × Cell)
  /-- The place of the outermost cell, if the text holds a document. -/
  root : Option Place

namespace Content

/-- What a document stands for: every place is filled at most once. -/
def ofDocument (d : Document) : Except Problem Content := do
  match d.root with
  | none => return ⟨[], none⟩
  | some p =>
    let work : Making.Step Unit := do
      let _ ← Making.visit p
      Making.finish (d.graph.size + 1)
    let (_, m) ← work.run { graph := d.graph }
    return ⟨m.cells, some p⟩

/-- What a text stands for. -/
def ofText [Machine] (text : String) : Except Problem Content := do
  ofDocument (← Document.ofText text)

/-- The cell at a place. -/
def cellAt (c : Content) (p : Place) : Cell := (c.cells.lookup p).getD (.scalar .null)

/-- A value that stands within itself: inside others it is shown by its brackets, and by itself it
has no text. -/
def again (brackets : String) : Value :=
  .foreign { text := .error .tooDeep, quoted := .ok brackets, key := brackets }

/-- The value at a place within the values at other places.  As a place within itself is not
unfolded, there are at most as many values around one as there are cells. -/
def unfold (c : Content) : Nat → List Place → Place → Value
  | 0, _, _ => .null
  | fuel + 1, outer, p =>
    let inner := c.unfold fuel (p :: outer)
    match c.cellAt p with
    | .scalar v => v
    | .set members => .set (Value.shownOrder members)
    | .list items => if outer.contains p then again "[...]" else .list (items.map inner)
    | .mapping entries =>
      if outer.contains p then again "\x7b...\x7d"
      else .mapping (entries.map (fun e => (e.1, inner e.2)))
    | .pairs entries =>
      if outer.contains p then again "[...]"
      else .list (entries.map (fun e => .pair (inner e.1) (inner e.2)))

/-- The value at a place. -/
def valueAt (c : Content) (p : Place) : Value := c.unfold (c.cells.length + 2) [] p

end Content

end TreeLint.Yaml
