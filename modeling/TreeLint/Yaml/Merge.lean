/-
Merging mappings into others.

The value of a key that merges is a mapping, or a list of mappings, whose entries
are put before those of the mapping around the key, so that the latter win; of
several mappings the first wins.  A mapping that is merged is itself freed of keys
that merge first.  `Graph.flatten` does so in the graph, where every place of a
mapping sees it done.  It also turns the kind of keys without a name into that of
texts.
-/
import TreeLint.Yaml.Cursor
import TreeLint.Yaml.Node
namespace TreeLint.Yaml.Graph

/-- Takes the first entry out whose key merges: its value, and the entries that are left. -/
def takeMerge (g : Graph) : List (Place × Place) → Option (Place × List (Place × Place))
  | [] => none
  | e :: rest =>
    if g.tagAt e.1 = .merge then some (e.2, rest)
    else (g.takeMerge rest).map (fun r => (r.1, e :: r.2))

/-- Turns the kind of a key without a name into that of texts. -/
def nameKey (g : Graph) (key : Place) : Graph :=
  if g.tagAt key = .nameless then g.setTag key .string else g

/-- Frees the mapping at a place of its keys that merge, with entries to be put before its own.
Every key takes one unit of fuel. -/
def flattenWith (fuel : Nat) (p : Place) (merged : List (Place × Place)) (g : Graph) :
    Except Problem Graph :=
  let entries := g.entriesAt p
  match g.takeMerge entries with
  | none =>
    let named := entries.foldl (fun g e => g.nameKey e.1) g
    .ok (named.setShape p (.mapping (merged ++ entries)))
  | some (source, rest) =>
    match fuel with
    | 0 => .error .malformed
    | fuel + 1 => do
      let g := g.setShape p (.mapping rest)
      match g.shapeAt source with
      | .mapping _ =>
        let g ← flattenWith fuel source [] g
        flattenWith fuel p (merged ++ g.entriesAt source) g
      | .list items =>
        -- of several mappings the first wins, so its entries come last
        let (g, found) ← items.foldlM (fun (found : Graph × List (Place × Place)) q =>
          match found.1.shapeAt q with
          | .mapping _ => do
            let g ← flattenWith fuel q [] found.1
            return (g, g.entriesAt q ++ found.2)
          | _ => throw .malformed) (g, [])
        flattenWith fuel p (merged ++ found) g
      | .scalar _ => throw .malformed

/-- Frees the mapping at a place of its keys that merge. -/
def flatten (g : Graph) (p : Place) : Except Problem Graph :=
  flattenWith (g.entryCount + 1) p [] g

/-- An entry that is taken out was there. -/
theorem length_of_takeMerge {g : Graph} {entries rest : List (Place × Place)} {source : Place}
    (h : g.takeMerge entries = some (source, rest)) : rest.length + 1 = entries.length := by
  induction entries generalizing source rest with
  | nil => cases h
  | cons e entries ih =>
    unfold takeMerge at h
    split at h
    · cases h; rfl
    · obtain ⟨r, hr, he⟩ := Option.map_eq_some_iff.1 h
      cases he
      have := ih hr
      simp only [List.length_cons]
      omega

end TreeLint.Yaml.Graph
