/-
Trees of nodes and their parent links.

A tree is a file: a root node and what is needed to locate offsets in it.  When a
tree is built, every node below the root is linked to its parent; a node that
would get two places in the tree is refused.  The links of all trees stand in one
table, so a node that is part of two trees has the parent that the later tree
gave it.

A site is a node together with the nodes above it, the nearest first.  Rules work
on sites: what surrounds a node is found by recursion on the list of its
ancestors.
-/
import TreeLint.Fault
import TreeLint.Syntax.Location
import TreeLint.Syntax.Node
import Std.Data.HashMap
import Std.Data.HashSet
namespace TreeLint

/-! ### Parent links -/

/-- The parents of nodes. -/
abbrev Links := Std.HashMap NodeId Node

/-- The number of nodes in and below the nodes of a list. -/
def totalSize (nodes : List Node) : Nat := (nodes.flatMap Node.preorder).length

@[simp] theorem totalSize_nil : totalSize [] = 0 := rfl

@[simp] theorem totalSize_cons (n : Node) (nodes : List Node) :
    totalSize (n :: nodes) = n.size + totalSize nodes := by
  simp [totalSize, Node.size]

@[simp] theorem totalSize_append (ms ns : List Node) :
    totalSize (ms ++ ns) = totalSize ms + totalSize ns := by
  simp [totalSize]

@[simp] theorem totalSize_reverse (ns : List Node) : totalSize ns.reverse = totalSize ns := by
  induction ns with
  | nil => rfl
  | cons n rest ih =>
    rw [List.reverse_cons, totalSize_append, ih, totalSize_cons, totalSize_cons, totalSize_nil]
    omega

theorem totalSize_children (n : Node) : totalSize n.children + 1 = n.size := by
  rw [Node.size, Node.preorder_eq, List.length_cons, totalSize]

namespace Links

/-- Links the children of a node to it, in their order.  The first child that was met before is
refused. -/
def addChildren (parent : Node) :
    List Node → Std.HashSet NodeId → Links → Except Fault (Std.HashSet NodeId × Links)
  | [], met, links => .ok (met, links)
  | c :: rest, met, links =>
    if met.contains c.id then .error (.sharedNode c.describe)
    else addChildren parent rest (met.insert c.id) (links.insert c.id parent)

/-- Links everything below the nodes of a stack: the top of the stack comes first, and then its
children, the last of them first. -/
def addBelow (stack : List Node) (met : Std.HashSet NodeId) (links : Links) :
    Except Fault Links :=
  match stack with
  | [] => .ok links
  | n :: rest =>
    match addChildren n n.children met links with
    | .error f => .error f
    | .ok (met, links) => addBelow (n.children.reverse ++ rest) met links
termination_by totalSize stack
decreasing_by
  have := totalSize_children n
  simp only [totalSize_append, totalSize_reverse, totalSize_cons]
  omega

/-- Links everything below a root. -/
def addTree (links : Links) (root : Node) : Except Fault Links :=
  addBelow [root] (Std.HashSet.emptyWithCapacity.insert root.id) links

/-- The first `bound` nodes above a node, the nearest first. -/
def ancestorsUpTo (links : Links) : Nat → Node → List Node
  | 0, _ => []
  | bound + 1, n =>
    match links[n.id]? with
    | none => []
    | some p => p :: ancestorsUpTo links bound p

/-- The nodes above a node, the nearest first. -/
def ancestors (links : Links) (n : Node) : List Node :=
  ancestorsUpTo links links.size n

end Links

/-! ### Sites -/

/-- A node and the nodes above it, the nearest first. -/
structure Site where
  /-- The node. -/
  node : Node
  /-- The nodes above it. -/
  ancestors : List Node

namespace Site

/-- The node above, with what is above it. -/
def parent? (s : Site) : Option Site :=
  match s.ancestors with
  | [] => none
  | p :: rest => some ⟨p, rest⟩

/-- The nearest node of a kind among the node and those above it. -/
def nearest? (accept : Node → Bool) (s : Site) : Option Site :=
  go s.node s.ancestors
where
  /-- The nearest accepted one of a node and the nodes above it. -/
  go (n : Node) : List Node → Option Site
    | [] => if accept n then some ⟨n, []⟩ else none
    | p :: rest => if accept n then some ⟨n, p :: rest⟩ else go p rest

end Site

/-- The node with the nodes that the links put above it. -/
def Links.site (links : Links) (n : Node) : Site := ⟨n, links.ancestors n⟩

/-! ### Trees -/

/-- A file: its root node and what locates offsets in it. -/
structure Tree where
  /-- The root of the tree. -/
  root : Node
  /-- The path of the file. -/
  path : String
  /-- The text of the file, if it is known. -/
  text : Option String
  /-- The offsets at which lines start. -/
  lineStarts : Array Int

namespace Tree

/-- The path of a tree that belongs to no file. -/
def memoryPath : String := "<memory>"

/-- The line starts of a tree: those given, else those of its text, else a single line. -/
def lineStartsOf (text : Option String) : Option (Array Int) → Array Int
  | some starts => starts
  | none =>
    match text with
    | some t => Location.startsOf t
    | none => #[0]

/-- Builds a tree and links the nodes below its root. -/
def build (links : Links) (root : Node) (path : String) (text : Option String)
    (lineStarts : Option (Array Int)) : Except Fault (Tree × Links) :=
  match links.addTree root with
  | .error f => .error f
  | .ok links => .ok (⟨root, path, text, lineStartsOf text lineStarts⟩, links)

/-- The nodes below the nodes of a stack: the top of the stack comes first, then its children in
the order of the source, then the rest of the stack. -/
def walkFrom (stack : List Node) : List Node :=
  match stack with
  | [] => []
  | n :: rest => n :: walkFrom (n.children ++ rest)
termination_by totalSize stack
decreasing_by
  have := totalSize_children n
  simp only [totalSize_append, totalSize_cons]
  omega

/-- The nodes of a tree in the order in which they are visited. -/
def walk (t : Tree) : List Node := walkFrom [t.root]

/-- A walk lists the nodes of the stack one after the other, each in preorder. -/
theorem walkFrom_eq (stack : List Node) : walkFrom stack = stack.flatMap Node.preorder := by
  fun_induction walkFrom stack with
  | case1 => rfl
  | case2 n rest ih =>
    rw [ih, List.flatMap_append, List.flatMap_cons, Node.preorder_eq]
    rfl

theorem walk_eq_preorder (t : Tree) : t.walk = t.root.preorder := by
  simp [walk, walkFrom_eq]

/-- The location of an offset in a tree. -/
def location (t : Tree) (offset : Int) : Except Fault Location :=
  match Location.ofOffset? t.lineStarts offset with
  | some l => .ok l
  | none => .error .noLineStart

/-- A tree in messages. -/
def shown (t : Tree) : String :=
  let path := t.path
  s!"SyntaxTree({path})"

end Tree

end TreeLint
