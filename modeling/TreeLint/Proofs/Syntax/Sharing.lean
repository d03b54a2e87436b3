/-
Trees are built exactly of nodes that are not shared.

The nodes below a root may be any that were put together before: a node can be the child
of several others, or several children of one.  Nodes with one identity are one node, so
all of this is told by the children of the nodes that the root reaches.

Building a tree meets every node below the root, and fails when it meets an identity
again; so it succeeds exactly if the nodes in preorder have different identities
(`Links.exists_addTree_eq_ok_iff`).  They have if no node stands in two places
(`Node.nodup_of_not_isShared`): of two children of a node from which one node is reached,
one is reached from the other, since the way up from a node is the same on both sides
(`Node.IsShared.of_reaches`), and then it stands in two places, below the root and below
the other child.

What a tree that was built looks like is `Tree.build_law`.
-/
import Mathlib.Logic.Relation
import TreeLint.Proofs.Syntax.Parents
namespace TreeLint

/-! ### What a root reaches -/

namespace Node

/-- Whether one comes from a node to another one by going to a child, any number of times. -/
def Reaches : Node → Node → Prop := Relation.ReflTransGen fun n c => c ∈ n.children

variable {root n m c d : Node}

lemma mem_preorder_iff_reaches : n ∈ root.preorder ↔ root.Reaches n := by
  constructor
  · intro hn
    induction root using Node.induction with
    | step root ih =>
      rw [preorder_eq_cons, List.mem_cons] at hn
      rcases hn with rfl | hn
      · exact .refl
      · obtain ⟨child, hchild, hn⟩ := List.mem_flatMap.1 hn
        exact .head hchild (ih child hchild hn)
  · intro hn
    induction hn with
    | refl => exact root.mem_preorder_self
    | tail _ hc ih => exact mem_preorder_of_mem_children ih hc

/-- What a node reaches is no larger than the node. -/
lemma Reaches.sizeOf_le (h : root.Reaches n) : sizeOf n ≤ sizeOf root := by
  induction h with
  | refl => exact Nat.le_refl _
  | tail _ hc ih => exact Nat.le_trans (Nat.le_of_lt (sizeOf_lt_of_mem_children hc)) ih

/-- A node is not reached from its children. -/
lemma not_reaches_of_mem_children (hc : c ∈ n.children) : ¬c.Reaches n := fun h =>
  Nat.lt_irrefl _ (Nat.lt_of_lt_of_le (sizeOf_lt_of_mem_children hc) h.sizeOf_le)

/-- Whether nodes that a root reaches are the same if they have the same identity. -/
def Identifies (root : Node) : Prop :=
  ∀ a b, root.Reaches a → root.Reaches b → a.id = b.id → a = b

lemma Identifies.of_reaches (h : root.Identifies) (hn : root.Reaches n) : n.Identifies :=
  fun a b ha hb => h a b (hn.trans ha) (hn.trans hb)

/-! ### Places -/

/-- Whether some node stands in two places below a root: two nodes that the root reaches have a
child with one identity, or one of them has it at two positions. -/
def IsShared (root : Node) : Prop :=
  ∃ (n m : Node) (i j : Nat) (c d : Node), root.Reaches n ∧ root.Reaches m ∧
    n.children[i]? = some c ∧ m.children[j]? = some d ∧ c.id = d.id ∧ (n.id, i) ≠ (m.id, j)

lemma IsShared.of_reaches (hn : root.Reaches n) (h : n.IsShared) : root.IsShared := by
  obtain ⟨a, b, i, j, c, d, ha, hb, hrest⟩ := h
  exact ⟨a, b, i, j, c, d, hn.trans ha, hn.trans hb, hrest⟩

/-- If no node is shared, the parent of a node is determined. -/
lemma eq_of_mem_children (hidentifies : root.Identifies) (hshared : ¬root.IsShared)
    (hn : root.Reaches n) (hm : root.Reaches m) (hcn : c ∈ n.children) (hcm : c ∈ m.children) :
    n = m := by
  obtain ⟨i, hi⟩ := List.mem_iff_getElem?.1 hcn
  obtain ⟨j, hj⟩ := List.mem_iff_getElem?.1 hcm
  by_contra hne
  refine hshared ⟨n, m, i, j, c, c, hn, hm, hi, hj, rfl, fun heq => hne ?_⟩
  exact hidentifies n m hn hm (Prod.ext_iff.1 heq).1

/-- If no node is shared, of two nodes that reach the same node one reaches the other. -/
lemma reaches_or_reaches (hidentifies : root.Identifies) (hshared : ¬root.IsShared)
    (hc : root.Reaches c) (hd : root.Reaches d) (hcm : c.Reaches m) (hdm : d.Reaches m) :
    c.Reaches d ∨ d.Reaches c := by
  induction hcm with
  | refl => exact .inr hdm
  | @tail p m hcp hm ih =>
    rcases hdm.cases_tail with rfl | ⟨q, hdq, hmq⟩
    · exact .inl (.tail hcp hm)
    -- the node has one parent, which is reached on both sides
    · have hparent : p = q := eq_of_mem_children hidentifies hshared (hc.trans hcp)
        (hd.trans hdq) hm hmq
      exact ih (hparent ▸ hdq)

/-- If no node is shared, nothing is reached from two children of a node. -/
lemma not_reaches_of_getElem? (hidentifies : root.Identifies) (hshared : ¬root.IsShared) {i j : Nat}
    (hi : root.children[i]? = some c) (hj : root.children[j]? = some d) (hij : i ≠ j)
    (hcm : c.Reaches m) : ¬d.Reaches m := by
  intro hdm
  have hc : c ∈ root.children := List.mem_of_getElem? hi
  have hd : d ∈ root.children := List.mem_of_getElem? hj
  -- it is enough that neither child is reached from the other
  have hapart : ∀ {i j : Nat} {c d : Node}, root.children[i]? = some c →
      root.children[j]? = some d → i ≠ j → ¬c.Reaches d := by
    intro i j c d hi hj hij hcd
    have hc : c ∈ root.children := List.mem_of_getElem? hi
    rcases hcd.cases_tail with rfl | ⟨p, hcp, hd⟩
    · exact hshared ⟨root, root, i, j, d, d, .refl, .refl, hi, hj, rfl,
        fun heq => hij (Prod.ext_iff.1 heq).2⟩
    · have hroot : root = p := eq_of_mem_children hidentifies hshared .refl (.head hc hcp)
        (List.mem_of_getElem? hj) hd
      exact not_reaches_of_mem_children hc (hroot ▸ hcp)
  rcases reaches_or_reaches hidentifies hshared (.single hc) (.single hd) hcm hdm with h | h
  · exact hapart hi hj hij h
  · exact hapart hj hi (Ne.symm hij) h

/-- If no node is shared, the nodes of a tree have different identities. -/
theorem nodup_of_not_isShared (hidentifies : root.Identifies) (hshared : ¬root.IsShared) :
    (root.preorder.map Node.id).Nodup := by
  induction root using Node.induction with
  | step root ih =>
    rw [preorder_eq_cons, List.map_cons, List.nodup_cons]
    constructor
    · intro hmem
      obtain ⟨m, hm, hid⟩ := List.mem_map.1 hmem
      obtain ⟨child, hchild, hm⟩ := List.mem_flatMap.1 hm
      rw [mem_preorder_iff_reaches] at hm
      have hroot : m = root := hidentifies m root (.head hchild hm) .refl hid
      exact not_reaches_of_mem_children hchild (hroot ▸ hm)
    · rw [descendants, List.map_flatMap, List.nodup_flatMap]
      refine ⟨fun child hchild => ?_, ?_⟩
      · exact ih child hchild (hidentifies.of_reaches (.single hchild))
          fun h => hshared (h.of_reaches (.single hchild))
      · rw [List.pairwise_iff_getElem]
        intro i j hi hj hij id hid hid'
        obtain ⟨a, ha, rfl⟩ := List.mem_map.1 hid
        obtain ⟨b, hb, heq⟩ := List.mem_map.1 hid'
        rw [mem_preorder_iff_reaches] at ha hb
        have hsame : b = a := hidentifies b a (.head (List.getElem_mem hj) hb)
          (.head (List.getElem_mem hi) ha) heq
        exact not_reaches_of_getElem? hidentifies hshared (List.getElem?_eq_getElem hi)
          (List.getElem?_eq_getElem hj) (Nat.ne_of_lt hij) ha (hsame ▸ hb)

end Node

/-! ### Building succeeds on different identities -/

namespace Links

variable {links links' : Links} {met met' : Std.HashSet NodeId} {root n parent : Node} {f : Fault}

/-- Children with different identities that were not met are linked. -/
lemma exists_addChildren_eq_ok {cs : List Node} (hnodup : (cs.map Node.id).Nodup)
    (hnew : ∀ c ∈ cs, c.id ∉ met) :
    ∃ met' links', addChildren parent cs met links = .ok (met', links') := by
  induction cs generalizing met links with
  | nil => exact ⟨met, links, rfl⟩
  | cons c rest ih =>
    obtain ⟨hc, hrest⟩ := List.nodup_cons.1 hnodup
    obtain ⟨hfirst, hothers⟩ := List.forall_mem_cons.1 hnew
    rw [addChildren, if_neg (by simpa using hfirst)]
    refine ih hrest fun d hd => ?_
    rw [Std.HashSet.mem_insert, not_or]
    refine ⟨fun heq => hc ?_, hothers d hd⟩
    rw [beq_iff_eq.1 heq]
    exact List.mem_map_of_mem hd

lemma eq_of_addChildren_eq_error {cs : List Node}
    (h : addChildren parent cs met links = .error f) : ∃ c ∈ cs, f = .sharedNode c.describe := by
  induction cs generalizing met links with
  | nil => cases h
  | cons c rest ih =>
    rw [addChildren] at h
    split at h
    · cases h
      exact ⟨c, List.mem_cons_self, rfl⟩
    · obtain ⟨d, hd, hf⟩ := ih h
      exact ⟨d, List.mem_cons_of_mem c hd, hf⟩

/-- What is below a stack is linked, if it has different identities that were not met. -/
lemma exists_addBelow_eq_ok {stack : List Node}
    (hnodup : ((stack.flatMap Node.descendants).map Node.id).Nodup)
    (hnew : ∀ m ∈ stack.flatMap Node.descendants, m.id ∉ met) :
    ∃ links', addBelow stack met links = .ok links' := by
  fun_induction addBelow stack met links with
  | case1 met links => exact ⟨links, rfl⟩
  | case2 met links n rest f hchildren =>
    have hperm := below_perm n rest
    rw [(hperm.map Node.id).nodup_iff, List.map_append] at hnodup
    obtain ⟨met', links', hok⟩ : ∃ met' links',
        addChildren n n.children met links = .ok (met', links') :=
      exists_addChildren_eq_ok hnodup.of_append_left
        fun c hc => hnew c (hperm.mem_iff.2 (List.mem_append_left _ hc))
    rw [hok] at hchildren
    cases hchildren
  | case3 met links n rest met₁ links₁ hchildren ih =>
    have hperm := below_perm n rest
    obtain ⟨-, -, hmet, -⟩ := addChildren_spec hchildren
    rw [(hperm.map Node.id).nodup_iff, List.map_append] at hnodup
    refine ih hnodup.of_append_right fun m hm => ?_
    rw [hmet, not_or]
    refine ⟨hnew m (hperm.mem_iff.2 (List.mem_append_right _ hm)), fun hchild => ?_⟩
    exact List.disjoint_of_nodup_append hnodup hchild (List.mem_map_of_mem hm)

/-- A node that is refused is below the stack. -/
lemma eq_of_addBelow_eq_error {stack : List Node} (h : addBelow stack met links = .error f) :
    ∃ m ∈ stack.flatMap Node.descendants, f = .sharedNode m.describe := by
  fun_induction addBelow stack met links with
  | case1 met links => cases h
  | case2 met links n rest f' hchildren =>
    cases h
    obtain ⟨c, hc, hf⟩ := eq_of_addChildren_eq_error hchildren
    exact ⟨c, (below_perm n rest).mem_iff.2 (List.mem_append_left _ hc), hf⟩
  | case3 met links n rest met₁ links₁ hchildren ih =>
    obtain ⟨m, hm, hf⟩ := ih h
    exact ⟨m, (below_perm n rest).mem_iff.2 (List.mem_append_right _ hm), hf⟩

/-- Everything below a root is linked exactly if the nodes of the tree have different identities. -/
theorem exists_addTree_eq_ok_iff (links : Links) (root : Node) :
    (∃ links', links.addTree root = .ok links') ↔ (root.preorder.map Node.id).Nodup := by
  constructor
  · rintro ⟨links', h⟩
    exact (parents_of_addTree h).1
  · rw [Node.preorder_eq_cons, List.map_cons, List.nodup_cons]
    rintro ⟨hroot, hnodup⟩
    refine exists_addBelow_eq_ok (by rwa [List.flatMap_singleton]) fun m hm => ?_
    rw [List.flatMap_singleton] at hm
    have hne : root.id ≠ m.id := fun heq => hroot (heq ▸ List.mem_map_of_mem hm)
    simpa using hne

end Links

/-- If the nodes of a tree have different identities, no node is shared. -/
lemma Node.not_isShared_of_nodup {root : Node} (h : (root.preorder.map Node.id).Nodup) :
    ¬root.IsShared := by
  rintro ⟨n, m, i, j, c, d, hn, hm, hi, hj, hid, hne⟩
  -- in a tree that was built the identity of a child tells its parent
  obtain ⟨links, hlinks⟩ := (Links.exists_addTree_eq_ok_iff ∅ root).2 h
  have hlinked := Links.isLinked_of_addTree Std.HashMap.getElem?_empty hlinks
  rw [← mem_preorder_iff_reaches] at hn hm
  have hparent := hlinked.parent n hn c (List.mem_of_getElem? hi)
  have hparent' := hlinked.parent m hm d (List.mem_of_getElem? hj)
  rw [hid, hparent'] at hparent
  cases hparent
  obtain ⟨hlt, -⟩ := List.getElem?_eq_some_iff.1 hi
  have hposition : i = j := by
    rw [← List.getElem?_inj (by rwa [List.length_map]) (nodup_children h hn), List.getElem?_map,
      List.getElem?_map, hi, hj, Option.map_some, Option.map_some, hid]
  exact hne (by rw [hposition])

/-! ### Trees that were built -/

namespace Links.IsLinked

variable {links : Links} {root n : Node} {above : List Node}

/-- The nearest accepted node, among a node of a linked tree and those above it, is the first
accepted one. -/
lemma nearest?_eq (h : links.IsLinked root) (hpath : root.IsPath n above) (accept : Node → Bool) :
    (links.site n).nearest? accept = ((n :: above).find? accept).map links.site := by
  have hgo : Site.nearest?.go accept n above = ((n :: above).find? accept).map links.site := by
    induction hpath with
    | root =>
      have hsite : links.site root = ⟨root, []⟩ := by rw [Links.site, h.ancestors_eq .root]
      rw [Site.nearest?.go, List.find?_cons, List.find?_nil]
      cases accept root with
      | true => exact congrArg some hsite.symm
      | false => rfl
    | @child n c above hn hc ih =>
      have hsite : links.site c = ⟨c, n :: above⟩ := by
        rw [Links.site, h.ancestors_eq (hn.child hc)]
      rw [Site.nearest?.go, List.find?_cons, ih]
      cases accept c with
      | true => exact congrArg some hsite.symm
      | false => rfl
  rw [Site.nearest?, node_site, ancestors_site, h.ancestors_eq hpath, hgo]

/-- Everything below the root of a linked tree has the node as its parent that lists it. -/
lemma exists_parent (h : links.IsLinked root) (hn : root.Reaches n) (hne : n ≠ root) :
    ∃ p, links[n.id]? = some p ∧ root.Reaches p ∧ n ∈ p.children ∧
      ∀ q, root.Reaches q → n ∈ q.children → q = p := by
  rcases hn.cases_tail with rfl | ⟨p, hp, hnp⟩
  · exact absurd rfl hne
  · have hparent := h.parent p (Node.mem_preorder_iff_reaches.2 hp) n hnp
    refine ⟨p, hparent, hp, hnp, fun q hq hnq => ?_⟩
    have hparent' := h.parent q (Node.mem_preorder_iff_reaches.2 hq) n hnq
    rw [hparent] at hparent'
    exact (Option.some.inj hparent').symm

end Links.IsLinked

namespace Tree

/-- **Building a tree.**  Take a root that was not linked before, and count nodes with one identity
as one node.  Building a tree fails exactly if some node stands in two places below the root, and
then names one of these nodes.  Otherwise it succeeds: the root has no parent, and every other node
has the one node as its parent that lists it among its children; the ancestors of a node are its
path to the root, the nearest first, so the nearest node of a kind is the innermost one; and a walk
visits each node once, a node before its children and these in their order. -/
theorem build_law (links : Links) (root : Node) (path : String) (text : Option String)
    (lineStarts : Option (Array Int)) (hidentifies : root.Identifies)
    (hroot : links[root.id]? = none) :
    ((∃ fault, build links root path text lineStarts = .error fault) ↔ root.IsShared) ∧
    (∀ fault, build links root path text lineStarts = .error fault →
      fault.faultClass = .other "ValueError" ∧
        ∃ n, root.Reaches n ∧ fault = .sharedNode n.describe) ∧
    (¬root.IsShared → ∃ tree links',
      build links root path text lineStarts = .ok (tree, links') ∧
      links'[root.id]? = none ∧
      (∀ n, root.Reaches n → n ≠ root → ∃ p, links'[n.id]? = some p ∧ root.Reaches p ∧
        n ∈ p.children ∧ ∀ q, root.Reaches q → n ∈ q.children → q = p) ∧
      (∀ n, root.Reaches n → root.IsPath n (links'.ancestors n) ∧
        (∀ above, root.IsPath n above → above = links'.ancestors n) ∧
        ∀ accept, (links'.site n).nearest? accept =
          ((n :: links'.ancestors n).find? accept).map links'.site) ∧
      tree.walk = root.preorder ∧ (tree.walk.map Node.id).Nodup ∧
      ∀ n, n ∈ tree.walk ↔ root.Reaches n) := by
  have hshared : ¬root.IsShared ↔ ∃ links', links.addTree root = .ok links' := by
    rw [Links.exists_addTree_eq_ok_iff]
    exact ⟨Node.nodup_of_not_isShared hidentifies, Node.not_isShared_of_nodup⟩
  refine ⟨?_, ?_, ?_⟩
  · rw [← not_iff_not, hshared, build]
    rcases links.addTree root with f | links' <;> simp
  · intro fault hfault
    rw [build] at hfault
    rcases hadd : links.addTree root with f | links' <;> rw [hadd] at hfault
    · cases hfault
      obtain ⟨m, hm, rfl⟩ := Links.eq_of_addBelow_eq_error hadd
      rw [List.flatMap_singleton] at hm
      refine ⟨rfl, m, ?_, rfl⟩
      rw [← Node.mem_preorder_iff_reaches, Node.preorder_eq_cons]
      exact List.mem_cons_of_mem root hm
    · cases hfault
  · intro hnot
    obtain ⟨links', hadd⟩ := hshared.1 hnot
    have hlinked := Links.isLinked_of_addTree hroot hadd
    refine ⟨⟨root, path, text, lineStartsOf text lineStarts⟩, links', by rw [build, hadd],
      hlinked.root, fun n hn hne => hlinked.exists_parent hn hne, fun n hn => ?_,
      walk_eq_preorder _, ?_, fun n => ?_⟩
    · obtain ⟨above, hpath⟩ := Node.exists_isPath (Node.mem_preorder_iff_reaches.2 hn)
      rw [hlinked.ancestors_eq hpath]
      refine ⟨hpath, fun above' hpath' => ?_, hlinked.nearest?_eq hpath⟩
      rw [← hlinked.ancestors_eq hpath, ← hlinked.ancestors_eq hpath']
    · rw [walk_eq_preorder]
      exact hlinked.distinct
    · rw [walk_eq_preorder]
      exact Node.mem_preorder_iff_reaches

/-- A return statement without a value. -/
def bareReturn : Node := .mk 1 ⟨1, 8⟩ .unresolved (.returnStatement none)

/-- A block with some statements. -/
def blockOf (statements : List Node) : Node := .mk 0 ⟨0, 9⟩ .unresolved (.block statements)

lemma reaches_blockOf_iff {n : Node} {statements : List Node} (h : ∀ s ∈ statements, s = bareReturn)
    (hne : statements ≠ []) :
    (blockOf statements).Reaches n ↔ n = blockOf statements ∨ n = bareReturn := by
  have hreturn : bareReturn.preorder = [bareReturn] := by
    rw [Node.preorder_eq]
    rfl
  have hchildren : (blockOf statements).children = statements := rfl
  rw [← Node.mem_preorder_iff_reaches, Node.preorder_eq, hchildren, List.mem_cons,
    List.mem_flatMap]
  refine or_congr_right ⟨?_, ?_⟩
  · rintro ⟨s, hs, hn⟩
    rw [h s hs, hreturn] at hn
    exact List.mem_singleton.1 hn
  · rintro rfl
    obtain ⟨s, hs⟩ := List.exists_mem_of_ne_nil statements hne
    exact ⟨s, hs, by rw [h s hs, hreturn]; exact List.mem_cons_self⟩

lemma identifies_blockOf {statements : List Node} (h : ∀ s ∈ statements, s = bareReturn)
    (hne : statements ≠ []) : (blockOf statements).Identifies := by
  intro a b ha hb hid
  rw [reaches_blockOf_iff h hne] at ha hb
  rcases ha with rfl | rfl <;> rcases hb with rfl | rfl
  · rfl
  · cases hid
  · cases hid
  · rfl

theorem build_law_blocks :
    (blockOf [bareReturn, bareReturn]).Identifies ∧
      (∃ fault, build ∅ (blockOf [bareReturn, bareReturn]) "twice.dart" none none =
        .error fault) ∧
      (blockOf [bareReturn]).Identifies ∧
      ∃ tree links, build ∅ (blockOf [bareReturn]) "once.dart" none none = .ok (tree, links) ∧
        links[bareReturn.id]? = some (blockOf [bareReturn]) := by
  have htwice : (blockOf [bareReturn, bareReturn]).Identifies :=
    identifies_blockOf (by simp) (List.cons_ne_nil _ _)
  have honce : (blockOf [bareReturn]).Identifies :=
    identifies_blockOf (by simp) (List.cons_ne_nil _ _)
  -- the statement is the first child of the block and the second one
  have hshared : (blockOf [bareReturn, bareReturn]).IsShared :=
    ⟨_, _, 0, 1, bareReturn, bareReturn, .refl, .refl, rfl, rfl, rfl, by simp⟩
  have hnot : ¬(blockOf [bareReturn]).IsShared := by
    refine Node.not_isShared_of_nodup ?_
    rw [Node.preorder_eq, show (blockOf [bareReturn]).children = [bareReturn] from rfl,
      List.flatMap_singleton, Node.preorder_eq bareReturn]
    decide
  obtain ⟨hfails, -, -⟩ := build_law ∅ (blockOf [bareReturn, bareReturn]) "twice.dart" none none
    htwice Std.HashMap.getElem?_empty
  obtain ⟨-, -, hsucceeds⟩ := build_law ∅ (blockOf [bareReturn]) "once.dart" none none honce
    Std.HashMap.getElem?_empty
  obtain ⟨tree, links, hbuild, -, hparent, -⟩ := hsucceeds hnot
  have hreaches : (blockOf [bareReturn]).Reaches bareReturn := .single List.mem_cons_self
  obtain ⟨p, hp, hreached, hchild, -⟩ := hparent bareReturn hreaches (fun h => nomatch h)
  refine ⟨htwice, hfails.2 hshared, honce, tree, links, hbuild, ?_⟩
  rcases (reaches_blockOf_iff (by simp) (List.cons_ne_nil _ _)).1 hreached with rfl | rfl
  · exact hp
  · cases hchild

end Tree

end TreeLint
