/-
Nodes: the structure of a text.

A node is a scalar, a list or a mapping, each with its kind.  It may stand in
several places, also within itself, so the nodes of a text are kept in a table,
the graph, and refer to one another by their places in it.
-/
import TreeLint.Yaml.Tag
namespace TreeLint.Yaml

/-- The place of a node in a graph. -/
abbrev Place := Nat

/-- What a node consists of. -/
inductive Shape where
  /-- A text. -/
  | scalar (text : String)
  /-- A list of nodes. -/
  | list (items : List Place)
  /-- A list of keys with their values. -/
  | mapping (entries : List (Place × Place))
deriving DecidableEq, Repr

/-- A node. -/
structure Node where
  /-- The kind of the node. -/
  tag : Tag
  /-- What the node consists of. -/
  shape : Shape
deriving DecidableEq, Repr

/-- The node that stands where the text has none. -/
def Node.empty : Node := ⟨.null, .scalar ""⟩

/-- The nodes of a text. -/
abbrev Graph := Array Node

namespace Graph

/-- The node at a place; a place without node has the empty one. -/
def nodeAt (g : Graph) (p : Place) : Node := (g[p]?).getD .empty

/-- The kind of the node at a place. -/
def tagAt (g : Graph) (p : Place) : Tag := (g.nodeAt p).tag

/-- What the node at a place consists of. -/
def shapeAt (g : Graph) (p : Place) : Shape := (g.nodeAt p).shape

/-- The entries of the node at a place; only a mapping has any. -/
def entriesAt (g : Graph) (p : Place) : List (Place × Place) :=
  match g.shapeAt p with
  | .mapping entries => entries
  | _ => []

/-- The graph with another shape for the node at a place. -/
def setShape (g : Graph) (p : Place) (shape : Shape) : Graph :=
  g.modify p (fun n => { n with shape := shape })

/-- The graph with another kind for the node at a place. -/
def setTag (g : Graph) (p : Place) (tag : Tag) : Graph :=
  g.modify p (fun n => { n with tag := tag })

/-- The number of entries of all mappings. -/
def entryCount (g : Graph) : Nat :=
  g.foldl (fun n node => match node.shape with
    | .mapping entries => n + entries.length
    | _ => n) 0

@[simp] theorem size_setShape (g : Graph) (p : Place) (shape : Shape) :
    (g.setShape p shape).size = g.size := by
  simp [setShape]

@[simp] theorem size_setTag (g : Graph) (p : Place) (tag : Tag) :
    (g.setTag p tag).size = g.size := by
  simp [setTag]

end Graph

end TreeLint.Yaml
