/-
The parents of the nodes of a tree.

A tree is linked when its nodes have different identities, every node below the root
is linked to the node that lists it among its children, and the root is linked to
nothing: `Links.IsLinked`.  Building a tree from nodes that were not linked before
links it (`Links.isLinked_of_addTree`), and in a linked tree the ancestors of a node
are the nodes on its path to the root, the nearest first
(`Links.IsLinked.ancestors_eq`).  The ancestors are looked up with a bound, the number
of links; a path cannot be longer, for its nodes below the root have a link each.
-/
import Mathlib.Data.List.Nodup
import Mathlib.Data.List.Perm.Subperm
import TreeLint.Syntax.Tree
namespace TreeLint

/-! ### Paths -/

namespace Node

/-- The nodes below a node: each before its children, the children in the order of the source. -/
def descendants (n : Node) : List Node := n.children.flatMap Node.preorder

lemma preorder_eq_cons (n : Node) : n.preorder = n :: n.descendants := n.preorder_eq

lemma mem_preorder_self (n : Node) : n ∈ n.preorder := by
  rw [preorder_eq_cons]
  exact List.mem_cons_self

lemma mem_preorder_of_mem_children {root n c : Node} (hn : n ∈ root.preorder)
    (hc : c ∈ n.children) : c ∈ root.preorder := by
  induction root using Node.induction with
  | step root ih =>
    rw [preorder_eq_cons, List.mem_cons] at hn ⊢
    rcases hn with rfl | hn
    · exact .inr (List.mem_flatMap.2 ⟨c, hc, c.mem_preorder_self⟩)
    · obtain ⟨child, hchild, hn⟩ := List.mem_flatMap.1 hn
      exact .inr (List.mem_flatMap.2 ⟨child, hchild, ih child hchild hn⟩)

/-- What is in and below a node of a tree stands together in the order of the tree. -/
lemma preorder_sublist {root n : Node} (hn : n ∈ root.preorder) :
    n.preorder.Sublist root.preorder := by
  induction root using Node.induction with
  | step root ih =>
    rw [preorder_eq_cons, List.mem_cons] at hn
    rcases hn with rfl | hn
    · exact List.Sublist.refl _
    · obtain ⟨child, hchild, hn⟩ := List.mem_flatMap.1 hn
      have hbelow : child.preorder.Sublist root.descendants :=
        List.sublist_flatten_of_mem (List.mem_map_of_mem hchild)
      rw [preorder_eq_cons root]
      exact ((ih child hchild hn).trans hbelow).cons root

/-- The children of a node stand in their order below it. -/
lemma children_sublist_descendants (n : Node) : n.children.Sublist n.descendants := by
  rw [descendants]
  induction n.children with
  | nil => exact List.Sublist.refl _
  | cons c rest ih =>
    rw [List.flatMap_cons, preorder_eq_cons, List.cons_append]
    exact (ih.trans (List.sublist_append_right _ _)).cons_cons c

/-- If the nodes of a tree have different identities, so have the children of each of them. -/
lemma nodup_children {root n : Node} (h : (root.preorder.map Node.id).Nodup)
    (hn : n ∈ root.preorder) : (n.children.map Node.id).Nodup := by
  have hsublist : n.children.Sublist root.preorder := by
    refine List.Sublist.trans ?_ (preorder_sublist hn)
    rw [preorder_eq_cons]
    exact n.children_sublist_descendants.cons n
  exact h.sublist (hsublist.map _)

/-- The nodes above a node of a tree, the nearest first and the root last. -/
inductive IsPath (root : Node) : Node → List Node → Prop where
  /-- Nothing is above the root. -/
  | root : IsPath root root []
  /-- Above a child are its parent and what is above the parent. -/
  | child {n c : Node} {above : List Node} (hn : IsPath root n above) (hc : c ∈ n.children) :
    IsPath root c (n :: above)

/-- Every node of a tree stands somewhere in it. -/
lemma exists_isPath {root n : Node} (hn : n ∈ root.preorder) : ∃ above, root.IsPath n above := by
  suffices hgen : ∀ m : Node, ∀ above, root.IsPath m above → n ∈ m.preorder →
      ∃ above, root.IsPath n above from hgen root [] .root hn
  intro m
  induction m using Node.induction with
  | step m ih =>
    intro above hm hmem
    rw [preorder_eq_cons, List.mem_cons] at hmem
    rcases hmem with rfl | hmem
    · exact ⟨above, hm⟩
    · obtain ⟨c, hc, hmem⟩ := List.mem_flatMap.1 hmem
      exact ih c hc _ (hm.child hc) hmem

namespace IsPath

variable {root n : Node} {above : List Node}

lemma subset_preorder (h : root.IsPath n above) : n :: above ⊆ root.preorder := by
  induction h with
  | root => exact List.cons_subset.2 ⟨root.mem_preorder_self, List.nil_subset _⟩
  | child _ hc ih =>
    exact List.cons_subset.2 ⟨mem_preorder_of_mem_children (ih List.mem_cons_self) hc, ih⟩

/-- The nodes on a path get larger, so none is met twice. -/
lemma nodup (h : root.IsPath n above) : (n :: above).Nodup := by
  suffices hsizes : (n :: above).Pairwise (sizeOf · < sizeOf ·) from
    hsizes.imp fun hlt heq => by rw [heq] at hlt; exact Nat.lt_irrefl _ hlt
  induction h with
  | root => exact List.pairwise_singleton _ _
  | child hn hc ih =>
    have hlt := sizeOf_lt_of_mem_children hc
    refine List.pairwise_cons.2 ⟨fun m hm => ?_, ih⟩
    rcases List.mem_cons.1 hm with rfl | hm
    · exact hlt
    · exact Nat.lt_trans hlt (List.rel_of_pairwise_cons ih hm)

end IsPath

end Node

/-! ### Linked trees -/

namespace Links

variable {links : Links} {root n : Node} {above : List Node}

@[simp] lemma node_site (links : Links) (n : Node) : (links.site n).node = n := rfl

@[simp] lemma ancestors_site (links : Links) (n : Node) :
    (links.site n).ancestors = links.ancestors n := rfl

/-- Whether a tree is linked: its nodes have different identities, each is the parent of its
children, and the root has no parent. -/
structure IsLinked (links : Links) (root : Node) : Prop where
  distinct : (root.preorder.map Node.id).Nodup
  parent : ∀ n ∈ root.preorder, ∀ c ∈ n.children, links[c.id]? = some n
  root : links[root.id]? = none

namespace IsLinked

/-- As far as the bound reaches, the ancestors are the nodes on the path to the root. -/
lemma ancestorsUpTo_eq (h : links.IsLinked root) (hpath : root.IsPath n above) (bound : Nat) :
    links.ancestorsUpTo bound n = above.take bound := by
  induction hpath generalizing bound with
  | root =>
    cases bound with
    | zero => rfl
    | succ bound => rw [ancestorsUpTo, h.root, List.take_nil]
  | @child n c above hn hc ih =>
    have hparent := h.parent n (hn.subset_preorder List.mem_cons_self) c hc
    cases bound with
    | zero => rfl
    | succ bound =>
      rw [ancestorsUpTo, List.take_succ_cons, ← ih]
      simp only [hparent]

lemma nodup_map_id (h : links.IsLinked root) (hpath : root.IsPath n above) :
    ((n :: above).map Node.id).Nodup := by
  refine hpath.nodup.map_on fun a ha b hb heq => ?_
  exact List.inj_on_of_nodup_map h.distinct (hpath.subset_preorder ha)
    (hpath.subset_preorder hb) heq

/-- All nodes of a path but the root are linked. -/
lemma mem_of_mem_dropLast (h : links.IsLinked root) (hpath : root.IsPath n above) :
    ∀ m ∈ (n :: above).dropLast, m.id ∈ links := by
  induction hpath with
  | root => exact fun m hm => nomatch hm
  | @child n c above hn hc ih =>
    have hparent := h.parent n (hn.subset_preorder List.mem_cons_self) c hc
    rw [List.dropLast_cons_cons]
    refine List.forall_mem_cons.2 ⟨?_, ih⟩
    rw [Std.HashMap.mem_iff_isSome_getElem?, hparent]
    rfl

/-- There are at least as many links as nodes above a node. -/
lemma length_le_size (h : links.IsLinked root) (hpath : root.IsPath n above) :
    above.length ≤ links.size := by
  -- the identities of a path without its root are different keys of the links
  have hnodup : (((n :: above).dropLast).map Node.id).Nodup :=
    (h.nodup_map_id hpath).sublist ((List.dropLast_sublist _).map _)
  have hsubset : ((n :: above).dropLast).map Node.id ⊆ links.keys := by
    intro i hi
    obtain ⟨m, hm, rfl⟩ := List.mem_map.1 hi
    exact Std.HashMap.mem_keys.2 (h.mem_of_mem_dropLast hpath m hm)
  have hle := (List.subperm_of_subset hnodup hsubset).length_le
  rwa [List.length_map, List.length_dropLast, List.length_cons, Nat.add_sub_cancel,
    Std.HashMap.length_keys] at hle

/-- **Ancestors.**  In a linked tree the ancestors of a node are the nodes on its path to the root,
the nearest first. -/
theorem ancestors_eq (h : links.IsLinked root) (hpath : root.IsPath n above) :
    links.ancestors n = above := by
  rw [ancestors, h.ancestorsUpTo_eq hpath, List.take_of_length_le (h.length_le_size hpath)]

end IsLinked

/-! ### Building a tree links it -/

section Building

variable {links' : Links} {met met' : Std.HashSet NodeId}

/-- What is linked when the children of a node are. -/
lemma addChildren_spec {parent : Node} {cs : List Node}
    (h : addChildren parent cs met links = .ok (met', links')) :
    (cs.map Node.id).Nodup ∧ (∀ c ∈ cs, c.id ∉ met) ∧
      (∀ i, i ∈ met' ↔ i ∈ met ∨ i ∈ cs.map Node.id) ∧
      (∀ c ∈ cs, links'[c.id]? = some parent) ∧
      ∀ i, i ∉ cs.map Node.id → links'[i]? = links[i]? := by
  induction cs generalizing met links with
  | nil =>
    cases h
    simp
  | cons c rest ih =>
    rw [addChildren] at h
    split at h
    · cases h
    · next hmet =>
      obtain ⟨hnodup, hnew, hmet', hlinked, hkept⟩ := ih h
      have hrest : c.id ∉ rest.map Node.id := by
        intro hmem
        obtain ⟨d, hd, hid⟩ := List.mem_map.1 hmem
        exact hnew d hd (by simp [hid])
      refine ⟨List.nodup_cons.2 ⟨hrest, hnodup⟩, ?_, ?_, ?_, ?_⟩
      · refine List.forall_mem_cons.2 ⟨by simpa using hmet, fun d hd hdmet => hnew d hd ?_⟩
        simp [hdmet]
      · intro i
        rw [hmet', Std.HashSet.mem_insert, List.map_cons, List.mem_cons, beq_iff_eq]
        tauto
      · refine List.forall_mem_cons.2 ⟨?_, hlinked⟩
        rw [hkept _ hrest, Std.HashMap.getElem?_insert_self]
      · intro i hi
        rw [List.map_cons, List.mem_cons, not_or] at hi
        rw [hkept i hi.2, Std.HashMap.getElem?_insert, if_neg (by simpa using Ne.symm hi.1)]

/-- The nodes of some trees are their roots and what is below these. -/
lemma flatMap_preorder_perm (nodes : List Node) :
    (nodes.flatMap Node.preorder).Perm (nodes ++ nodes.flatMap Node.descendants) := by
  induction nodes with
  | nil => exact .nil
  | cons n rest ih =>
    rw [List.flatMap_cons, Node.preorder_eq_cons, List.flatMap_cons, List.cons_append,
      List.cons_append]
    refine .cons n ((ih.append_left _).trans ?_)
    rw [← List.append_assoc, ← List.append_assoc]
    exact List.perm_append_comm.append_right _

/-- What is below a stack is made of the children of its top, and of what is below the stack that
has these children in the place of the top. -/
lemma below_perm (n : Node) (rest : List Node) :
    ((n :: rest).flatMap Node.descendants).Perm
      (n.children ++ (n.children.reverse ++ rest).flatMap Node.descendants) := by
  have hreverse := (n.children.reverse_perm).symm.flatMap_right Node.descendants
  rw [List.flatMap_cons, List.flatMap_append, ← List.append_assoc, Node.descendants]
  exact ((flatMap_preorder_perm n.children).trans (hreverse.append_left _)).append_right _

/-- What is linked when everything below a stack is. -/
lemma addBelow_spec {stack : List Node} (h : addBelow stack met links = .ok links') :
    ((stack.flatMap Node.descendants).map Node.id).Nodup ∧
      (∀ m ∈ stack.flatMap Node.descendants, m.id ∉ met) ∧
      (∀ n ∈ stack.flatMap Node.preorder, ∀ c ∈ n.children, links'[c.id]? = some n) ∧
      ∀ i, i ∉ (stack.flatMap Node.descendants).map Node.id → links'[i]? = links[i]? := by
  fun_induction addBelow stack met links with
  | case1 met links =>
    cases h
    simp
  | case2 met links n rest f hchildren => cases h
  | case3 met links n rest met₁ links₁ hchildren ih =>
    obtain ⟨hnodup, hnew, hmet, hlinked, hkept⟩ := addChildren_spec hchildren
    obtain ⟨hnodup', hnew', hlinked', hkept'⟩ := ih h
    have hperm := below_perm n rest
    -- what is linked later was not met before, so it is none of the children
    have hdisjoint : ∀ m ∈ (n.children.reverse ++ rest).flatMap Node.descendants,
        m.id ∉ met ∧ m.id ∉ n.children.map Node.id := by
      intro m hm
      have hnot := hnew' m hm
      rw [hmet, not_or] at hnot
      exact hnot
    have hlater : ∀ i ∈ n.children.map Node.id,
        i ∉ ((n.children.reverse ++ rest).flatMap Node.descendants).map Node.id := by
      intro i hi hmem
      obtain ⟨m, hm, rfl⟩ := List.mem_map.1 hmem
      exact (hdisjoint m hm).2 hi
    refine ⟨?_, ?_, ?_, ?_⟩
    · rw [(hperm.map Node.id).nodup_iff, List.map_append]
      exact hnodup.append hnodup' (fun i hi hmem => hlater i hi hmem)
    · intro m hm
      rcases List.mem_append.1 (hperm.mem_iff.1 hm) with hm | hm
      · exact hnew m hm
      · exact (hdisjoint m hm).1
    · intro m hm c hc
      rw [List.flatMap_cons, Node.preorder_eq_cons, List.cons_append, List.mem_cons] at hm
      rcases hm with rfl | hm
      · rw [hkept' _ (hlater _ (List.mem_map_of_mem hc))]
        exact hlinked c hc
      · refine hlinked' m ?_ c hc
        rw [List.flatMap_append, List.mem_append, List.mem_flatMap]
        rcases List.mem_append.1 hm with hm | hm
        · obtain ⟨child, hchild, hm⟩ := List.mem_flatMap.1 hm
          exact .inl ⟨child, List.mem_reverse.2 hchild, hm⟩
        · exact .inr hm
    · intro i hi
      rw [(hperm.map Node.id).mem_iff, List.map_append, List.mem_append, not_or] at hi
      rw [hkept' i hi.2, hkept i hi.1]

/-- In a tree that was built, the nodes have different identities, and each is the parent of its
children. -/
lemma parents_of_addTree (h : links.addTree root = .ok links') :
    (root.preorder.map Node.id).Nodup ∧
      ∀ n ∈ root.preorder, ∀ c ∈ n.children, links'[c.id]? = some n := by
  obtain ⟨hnodup, hnew, hlinked, -⟩ := addBelow_spec h
  rw [List.flatMap_singleton] at hnodup hnew hlinked
  refine ⟨?_, hlinked⟩
  rw [Node.preorder_eq_cons, List.map_cons, List.nodup_cons]
  refine ⟨fun hmem => ?_, hnodup⟩
  obtain ⟨m, hm, hid⟩ := List.mem_map.1 hmem
  exact hnew m hm (by simp [hid])

/-- **Building a tree links it.**  A tree whose root was not linked before is linked once the nodes
below the root are. -/
theorem isLinked_of_addTree (hroot : links[root.id]? = none)
    (h : links.addTree root = .ok links') : links'.IsLinked root := by
  obtain ⟨hdistinct, hparent⟩ := parents_of_addTree h
  obtain ⟨-, -, -, hkept⟩ := addBelow_spec h
  rw [List.flatMap_singleton] at hkept
  refine ⟨hdistinct, hparent, ?_⟩
  rw [Node.preorder_eq_cons, List.map_cons, List.nodup_cons] at hdistinct
  rw [hkept _ hdistinct.1]
  exact hroot

end Building

end Links

end TreeLint
