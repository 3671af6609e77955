import YangBinding.Statement.Node
import Mathlib.Data.List.Perm.Lattice
import Mathlib.Data.List.Nodup
import Mathlib.Data.List.Pairwise

namespace YangBinding

-- A forest is taken apart at its first tree: the statements inside its top, then the other trees.
-- One motive on lists thus serves every recursion that goes over statements and lists by turns.
@[elab_as_elim]
theorem Statement.forest_induction {motive : List Statement → Prop} (nil : motive [])
    (cons : ∀ keyword arg substatements rest, motive substatements → motive rest →
      motive (.mk keyword arg substatements :: rest)) (forest : List Statement) :
    motive forest :=
  @Statement.rec_1 (fun s => motive s.substatements) motive (fun _ _ _ h => h) nil
    (fun s rest hs hrest => by
      cases s with
      | mk keyword arg substatements => exact cons _ _ _ _ hs hrest) forest

namespace Node

@[elab_as_elim]
theorem forest_induction {motive : List Node → Prop} (nil : motive [])
    (cons : ∀ id keyword arg children rest, motive children → motive rest →
      motive (.mk id keyword arg children :: rest)) (nodes : List Node) :
    motive nodes :=
  @Node.rec_1 (fun n => motive n.children) motive (fun _ _ _ _ h => h) nil
    (fun n rest hn hrest => by
      cases n with
      | mk id keyword arg children => exact cons _ _ _ _ _ hn hrest) nodes

theorem preorder_eq (n : Node) : n.preorder = n :: preorderAll n.children := by
  cases n with
  | mk id keyword arg inner => rw [preorder, children]

theorem self_mem_preorder (n : Node) : n ∈ n.preorder := by
  rw [preorder_eq]
  exact List.mem_cons_self

theorem preorderAll_eq_flatMap (nodes : List Node) :
    preorderAll nodes = nodes.flatMap preorder := by
  induction nodes with
  | nil => rfl
  | cons n rest ih => rw [preorderAll, ih, List.flatMap_cons]

theorem mem_preorderAll_of_mem {n : Node} {nodes : List Node} (h : n ∈ nodes) :
    n ∈ preorderAll nodes := by
  rw [preorderAll_eq_flatMap]
  exact List.mem_flatMap.mpr ⟨n, h, n.self_mem_preorder⟩

-- What is inside a node of a forest stands in the forest in the same order.
theorem preorder_sublist {n : Node} {nodes : List Node} (h : n ∈ preorderAll nodes) :
    n.preorder.Sublist (preorderAll nodes) := by
  induction nodes using forest_induction with
  | nil => simp [preorderAll] at h
  | cons id keyword arg children rest ihc ihr =>
      rw [preorderAll, List.mem_append, preorder, List.mem_cons] at h
      rw [preorderAll]
      rcases h with (rfl | h) | h
      · exact List.sublist_append_left _ _
      · have hc := (ihc h).cons (.mk id keyword arg children)
        rw [preorder]
        exact hc.trans (List.sublist_append_left _ _)
      · exact (ihr h).trans (List.sublist_append_right _ _)

theorem map_id_preorderAll_numberAll (forest : List Statement) (first : Nat) :
    (preorderAll (numberAll first forest)).map id =
      List.range' first (Statement.sizeAll forest) := by
  induction forest using Statement.forest_induction generalizing first with
  | nil => simp [numberAll, preorderAll, Statement.sizeAll]
  | cons keyword arg substatements rest ihs ihr =>
      rw [numberAll, number, preorderAll, preorder, List.map_append, List.map_cons, ihs, ihr,
        Statement.sizeAll, Statement.size, List.range'_append_1.symm, List.range'_succ]
      rfl

-- Every node of a forest is a top node or a child, and a child of one node only.
theorem append_flatMap_children_perm (nodes : List Node) :
    (nodes ++ (preorderAll nodes).flatMap children).Perm (preorderAll nodes) := by
  induction nodes using forest_induction with
  | nil => simp [preorderAll]
  | cons id keyword arg inner rest ihc ihr =>
      simp only [preorderAll, preorder, List.cons_append, List.flatMap_cons, List.flatMap_append]
      refine List.Perm.cons _ ?_
      have hswap := List.perm_append_comm_assoc rest
        (inner ++ (preorderAll inner).flatMap children) ((preorderAll rest).flatMap children)
      rw [List.append_assoc] at hswap
      exact hswap.trans (ihc.append ihr)

-- The numbers grow in the order of the text, so an outer statement has a smaller number than
-- those inside it, and no two have the same.
def Numbered (n : Node) : Prop := (n.preorder.map id).Pairwise (· < ·)

theorem Numbered.id_lt {n inner : Node} (h : n.Numbered) (hi : inner ∈ preorderAll n.children) :
    n.id < inner.id := by
  unfold Numbered at h
  rw [preorder_eq, List.map_cons, List.pairwise_cons] at h
  exact h.1 _ (List.mem_map_of_mem hi)

theorem Numbered.child {n child : Node} (h : n.Numbered) (hc : child ∈ n.children) :
    child.Numbered := by
  have hs : child.preorder.Sublist n.preorder := by
    rw [preorder_eq n]
    exact (preorder_sublist (mem_preorderAll_of_mem hc)).cons n
  exact h.sublist (hs.map id)

end Node

namespace Forest

theorem map_id_nodes (forest : Forest) :
    forest.nodes.map Node.id = List.range' 0 (Statement.sizeAll forest) :=
  Node.map_id_preorderAll_numberAll forest 0

theorem nodes_ids_nodup (forest : Forest) : (forest.nodes.map Node.id).Nodup := by
  rw [map_id_nodes]
  exact List.nodup_range'

theorem eq_of_id_eq {forest : Forest} {n m : Node} (hn : n ∈ forest.nodes)
    (hm : m ∈ forest.nodes) (h : n.id = m.id) : n = m :=
  List.inj_on_of_nodup_map forest.nodes_ids_nodup hn hm h

theorem mem_nodes_of_mem_roots {forest : Forest} {root : Node} (h : root ∈ forest.roots) :
    root ∈ forest.nodes := Node.mem_preorderAll_of_mem h

theorem numbered_of_mem_nodes {forest : Forest} {n : Node} (h : n ∈ forest.nodes) :
    n.Numbered := by
  have hs := (Node.preorder_sublist h).map Node.id
  have hr : (forest.nodes.map Node.id).Pairwise (· < ·) := by
    rw [map_id_nodes]
    exact List.pairwise_lt_range'
  exact hr.sublist hs

theorem mem_nodes_of_mem_children {forest : Forest} {parent child : Node}
    (hp : parent ∈ forest.nodes) (hc : child ∈ parent.children) : child ∈ forest.nodes := by
  have hs := Node.preorder_sublist hp
  rw [Node.preorder_eq] at hs
  exact hs.subset (List.mem_cons_of_mem _ (Node.mem_preorderAll_of_mem hc))

-- Each number is that of a top node or of one child of one node.
theorem roots_children_ids_nodup (forest : Forest) :
    (forest.roots.map Node.id ++ (forest.nodes.flatMap Node.children).map Node.id).Nodup := by
  have hperm := (Node.append_flatMap_children_perm forest.roots).map Node.id
  rw [List.map_append] at hperm
  exact hperm.nodup_iff.mpr forest.nodes_ids_nodup

theorem parent_unique {forest : Forest} {p q s t : Node} (hp : p ∈ forest.nodes)
    (hq : q ∈ forest.nodes) (hs : s ∈ p.children) (ht : t ∈ q.children) (hid : s.id = t.id) :
    p = q := by
  have hnodup := forest.roots_children_ids_nodup.of_append_right
  rw [List.map_flatMap, List.nodup_flatMap] at hnodup
  have hsymm : Std.Symm (Function.onFun List.Disjoint fun n : Node => n.children.map Node.id) :=
    ⟨fun _ _ h => h.symm⟩
  by_contra hne
  have hdisjoint := hnodup.2.forall hp hq hne
  exact hdisjoint (List.mem_map_of_mem hs) (hid ▸ List.mem_map_of_mem ht)

theorem children_ids_nodup {forest : Forest} {p : Node} (hp : p ∈ forest.nodes) :
    (p.children.map Node.id).Nodup := by
  have hnodup := forest.roots_children_ids_nodup.of_append_right
  rw [List.map_flatMap, List.nodup_flatMap] at hnodup
  exact hnodup.1 p hp

theorem exists_of_parent? {forest : Forest} {id : Nat} {parent : Node}
    (h : forest.parent? id = some parent) :
    parent ∈ forest.nodes ∧ ∃ child ∈ parent.children, child.id = id := by
  have hany := List.find?_some h
  simp only [List.any_eq_true, beq_iff_eq] at hany
  exact ⟨List.mem_of_find?_eq_some h, hany⟩

theorem parent?_of_mem_children {forest : Forest} {parent child : Node}
    (hp : parent ∈ forest.nodes) (hc : child ∈ parent.children) :
    forest.parent? child.id = some parent := by
  have hsome : (forest.parent? child.id).isSome := by
    refine List.find?_isSome.mpr ⟨parent, hp, ?_⟩
    exact List.any_eq_true.mpr ⟨child, hc, by simp⟩
  obtain ⟨other, hother⟩ := Option.isSome_iff_exists.mp hsome
  obtain ⟨ho, twin, ht, hid⟩ := exists_of_parent? hother
  rw [hother, parent_unique hp ho hc ht hid.symm]

theorem parent?_of_mem_roots {forest : Forest} {root : Node} (h : root ∈ forest.roots) :
    forest.parent? root.id = none := by
  by_contra hne
  obtain ⟨parent, hparent⟩ := Option.ne_none_iff_exists'.mp hne
  obtain ⟨hp, child, hc, hid⟩ := exists_of_parent? hparent
  have hchild : child.id ∈ (forest.nodes.flatMap Node.children).map Node.id :=
    List.mem_map_of_mem (List.mem_flatMap.mpr ⟨parent, hp, hc⟩)
  have hdisjoint := List.disjoint_of_nodup_append forest.roots_children_ids_nodup
  exact hdisjoint (List.mem_map_of_mem h) (hid ▸ hchild)

theorem mem_roots_or_children {forest : Forest} {n : Node} (h : n ∈ forest.nodes) :
    n ∈ forest.roots ∨ ∃ parent ∈ forest.nodes, n ∈ parent.children := by
  have hperm := Node.append_flatMap_children_perm forest.roots
  rcases List.mem_append.mp (hperm.mem_iff.mpr h) with hr | hc
  · exact .inl hr
  · exact .inr (List.mem_flatMap.mp hc)

-- The node numbered `id` stands at place `id`.
theorem node?_eq_some_iff {forest : Forest} {id : Nat} {n : Node} :
    forest.node? id = some n ↔ n ∈ forest.nodes ∧ n.id = id := by
  have hplace {i : Nat} {m : Node} (h : forest.nodes[i]? = some m) : m.id = i := by
    have hid : (forest.nodes.map Node.id)[i]? = some m.id := by rw [List.getElem?_map, h]; rfl
    rw [map_id_nodes, List.getElem?_eq_some_iff] at hid
    obtain ⟨_, hid⟩ := hid
    rw [List.getElem_range'] at hid
    omega
  constructor
  · intro h
    exact ⟨List.mem_of_getElem? h, hplace h⟩
  · rintro ⟨hn, rfl⟩
    obtain ⟨i, hi⟩ := List.getElem?_of_mem hn
    rw [hplace hi]
    exact hi

end Forest

end YangBinding
