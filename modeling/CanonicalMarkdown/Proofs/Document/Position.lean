import CanonicalMarkdown.Proofs.Document.Traversal

namespace CanonicalMarkdown.Document

/-! A tree read by the numbers of its nodes: each node with its element and its place. -/

theorem Chain.of_append {step : NodeId → Option NodeId} {start : Option NodeId} {id : NodeId}
    {front rest : List NodeId} (hchain : Chain step start (front ++ id :: rest)) :
    Chain step (step id) rest := by
  induction front generalizing start with
  | nil =>
      cases hchain with
      | link hrest => exact hrest
  | cons other front ih =>
      cases hchain with
      | link hrest => exact ih hrest

namespace Tree

def elements (tree : Tree) (ids : List NodeId) : List Element := ids.filterMap tree.element?

theorem exists_node?_of_lt {tree : Tree} {id : NodeId} (hid : id < tree.size) :
    ∃ node, tree.node? id = some node := by
  obtain ⟨entry, hentry⟩ := exists_get?_of_lt hid
  exact ⟨entry.node, by simp [node?, hentry]⟩

theorem lt_of_parentOf {tree : Tree} {child parent : NodeId}
    (hparent : tree.parentOf child = some parent) : child < tree.size :=
  lt_of_mem_offspring (mem_offspring.mpr hparent)

theorem nodes_cons {tree : Tree} {id : NodeId} {node : Node} (hnode : tree.node? id = some node)
    (rest : List NodeId) : tree.nodes (id :: rest) = node :: tree.nodes rest :=
  List.filterMap_cons_some hnode

namespace Linked

variable {tree : Tree} (hlinked : tree.Linked)
include hlinked

theorem mem_children {id child : NodeId} :
    child ∈ tree.children id ↔ tree.parentOf child = some id := by
  rw [hlinked.children_eq]
  exact mem_offspring

theorem exists_node?_of_mem_children {id child : NodeId} (hchild : child ∈ tree.children id) :
    ∃ node, tree.node? child = some node := by
  rw [hlinked.children_eq] at hchild
  exact exists_node?_of_lt (lt_of_mem_offspring hchild)

theorem exists_node?_of_parentOf {id parent : NodeId} (hparent : tree.parentOf id = some parent) :
    ∃ node, tree.node? parent = some node :=
  exists_node?_of_lt (Nat.lt_trans (hlinked.parent_lt id parent hparent) (lt_of_parentOf hparent))

/-! An element holds all of its descendants, however deep it is read. -/

theorem elementWithin_eq {depth other : Nat} {id : NodeId} (node : Node)
    (hdepth : tree.size ≤ depth + id) (hother : tree.size ≤ other + id) (hid : id < tree.size) :
    tree.elementWithin depth id node = tree.elementWithin other id node := by
  induction depth generalizing other id node with
  | zero => exact absurd hid (by simpa using hdepth)
  | succ depth ih =>
      cases other with
      | zero => exact absurd hid (by simpa using hother)
      | succ other =>
          rw [elementWithin, elementWithin]
          congr 1
          apply List.filterMap_congr
          intro child hchild
          rw [hlinked.children_eq] at hchild
          obtain ⟨hleft, hlt⟩ := hlinked.child_within hdepth hchild
          obtain ⟨hright, -⟩ := hlinked.child_within hother hchild
          congr 1
          funext node
          exact ih node hleft hright hlt

theorem element?_eq {id : NodeId} {node : Node} (hnode : tree.node? id = some node) :
    tree.element? id = some (.mk id node (tree.elements (tree.children id))) := by
  obtain ⟨depth, hsize⟩ := Nat.exists_eq_add_one_of_ne_zero (Nat.ne_of_gt hlinked.root_mem)
  have hwithin : tree.size ≤ depth + 1 + id := hsize ▸ Nat.le_add_right (depth + 1) id
  rw [element?, hnode, Option.map_some, hsize, elementWithin]
  congr 2
  apply List.filterMap_congr
  intro child hchild
  rw [hlinked.children_eq] at hchild
  obtain ⟨hdepth, hlt⟩ := hlinked.child_within hwithin hchild
  rw [element?]
  congr 1
  funext node
  exact hlinked.elementWithin_eq node hdepth (Nat.le_add_right ..) hlt

theorem eq_of_element? {id : NodeId} {element : Element}
    (helement : tree.element? id = some element) :
    tree.node? id = some element.node ∧
      element = .mk id element.node (tree.elements (tree.children id)) := by
  obtain ⟨node, hnode, -⟩ := Option.map_eq_some_iff.mp helement
  rw [hlinked.element?_eq hnode] at helement
  cases helement
  exact ⟨hnode, rfl⟩

theorem element?_root : tree.element? rootId = some tree.root := by
  obtain ⟨node, hnode⟩ := exists_node?_of_lt hlinked.root_mem
  simp [element?, root, hnode]

/-! What surrounds a node follows from what surrounds its parent. -/

theorem ancestors_child {parent child : NodeId} (hparent : tree.parentOf child = some parent) :
    tree.ancestors child = parent :: tree.ancestors parent := by
  have hchild := lt_of_parentOf hparent
  have hlt := hlinked.parent_lt child parent hparent
  obtain ⟨path, hchain, hlength, -⟩ := hlinked.exists_path (Nat.lt_trans hlt hchild)
  have hbound : path.length + 1 ≤ tree.size :=
    Nat.le_trans (Nat.succ_le_succ hlength) (Nat.le_trans hlt (Nat.le_of_lt hchild))
  have habove : tree.ancestors parent = path := hchain.follow_eq (Nat.le_of_succ_le hbound)
  have hwhole : Chain tree.parentOf (tree.parentOf child) (parent :: path) := by
    rw [hparent]
    exact .link hchain
  rw [habove]
  exact hwhole.follow_eq hbound

theorem ancestors_root : tree.ancestors rootId = [] := by
  rw [ancestors, hlinked.root_parent]
  cases tree.size <;> rfl

section

variable {parent child : NodeId} {left right : List NodeId}
  (hsplit : tree.children parent = left ++ child :: right)
include hsplit

theorem parentOf_of_split : tree.parentOf child = some parent :=
  hlinked.mem_children.mp (by simp [hsplit])

theorem nextOf_of_split : tree.nextOf child = right.head? := by
  have hchain := hlinked.forward parent
  rw [← hlinked.children_eq, hsplit] at hchain
  exact hchain.of_append.head?_eq.symm

theorem previousSiblings_of_split : tree.previousSiblings child = left.reverse := by
  have hchain := hlinked.backward parent
  rw [← hlinked.children_eq, hsplit, List.reverse_append, List.reverse_cons,
    List.append_assoc, List.singleton_append] at hchain
  have hlength : (tree.offspring parent).length ≤ tree.size := by
    calc
      (tree.offspring parent).length ≤ (List.range tree.size).length := List.length_filter_le ..
      _ = tree.size := List.length_range
  rw [← hlinked.children_eq, hsplit] at hlength
  simp only [List.length_append, List.length_cons] at hlength
  apply (Chain.of_append hchain).follow_eq
  rw [List.length_reverse]
  omega

theorem place_of_split {node : Node} (hnode : tree.node? parent = some node) :
    tree.place child = ⟨node :: (tree.place parent).ancestors, (tree.nodes left).reverse,
      right.head?.bind tree.node?⟩ := by
  have habove := hlinked.ancestors_child (hlinked.parentOf_of_split hsplit)
  rw [place, habove, nodes_cons hnode, hlinked.previousSiblings_of_split hsplit,
    hlinked.nextOf_of_split hsplit]
  simp [nodes, List.filterMap_reverse, place]

end

theorem ancestors_place_child {parent child : NodeId} {node : Node}
    (hparent : tree.parentOf child = some parent) (hnode : tree.node? parent = some node) :
    (tree.place child).ancestors = node :: (tree.place parent).ancestors := by
  rw [place, hlinked.ancestors_child hparent]
  exact nodes_cons hnode _

/-! What holds of a node once it holds of its children holds of every node. -/

theorem of_children {motive : NodeId → Prop}
    (step : ∀ id node, tree.node? id = some node → (∀ child ∈ tree.children id, motive child) →
      motive id)
    {id : NodeId} (hid : id < tree.size) : motive id := by
  induction hcount : tree.size - id using Nat.strongRecOn generalizing id with
  | ind count ih =>
      obtain ⟨node, hnode⟩ := exists_node?_of_lt hid
      apply step id node hnode
      intro child hchild
      have hparent := hlinked.mem_children.mp hchild
      have hlt := hlinked.parent_lt child id hparent
      have hchild := lt_of_parentOf hparent
      refine ih (tree.size - child) ?_ hchild rfl
      rw [← hcount]
      exact Nat.sub_lt_sub_left hid hlt

end Linked

/-! The root stands alone. -/

theorem Grown.siblings_root {tree : Tree} (hgrown : tree.Grown) :
    tree.previousOf rootId = none ∧ tree.nextOf rootId = none := by
  induction hgrown with
  | new => exact ⟨rfl, rfl⟩
  | @append tree grown parent id node hgrown happend ih =>
      have hlinked := hgrown.linked
      obtain ⟨-, hid, -⟩ := append?_eq_some happend
      have hroot : rootId ≠ id := hid ▸ Nat.ne_of_lt hlinked.root_mem
      have hlast : tree.lastOf parent ≠ some rootId := by
        intro hlast
        have hparent := hlinked.parentOf_of_lastOf hlast
        rw [hlinked.root_parent] at hparent
        cases hparent
      rw [previousOf_append happend, if_neg hroot, nextOf_append happend hlinked.root_mem,
        if_neg hlast]
      exact ih
  | set id node _ ih => rwa [previousOf_set, nextOf_set]

/-- A node with a neighbour after it has a parent, and stands right before it. -/
theorem Grown.exists_split_of_nextOf {tree : Tree} (hgrown : tree.Grown) {left right : NodeId}
    (hnext : tree.nextOf left = some right) :
    ∃ parent before after, tree.children parent = before ++ left :: right :: after := by
  have hlinked := hgrown.linked
  obtain ⟨entry, hentry, -⟩ := Option.bind_eq_some_iff.mp hnext
  have hroot : left ≠ rootId := by
    rintro rfl
    cases hnext.symm.trans hgrown.siblings_root.2
  obtain ⟨parent, hparent⟩ := hlinked.exists_parent left (lt_of_get? hentry) hroot
  obtain ⟨before, rest, hsplit⟩ := List.append_of_mem (hlinked.mem_children.mpr hparent)
  rw [hlinked.nextOf_of_split hsplit] at hnext
  obtain ⟨after, rfl⟩ := List.head?_eq_some_iff.mp hnext
  exact ⟨parent, before, after, hsplit⟩

theorem Grown.place_root {tree : Tree} (hgrown : tree.Grown) : tree.place rootId = Place.root := by
  obtain ⟨hprevious, hnext⟩ := hgrown.siblings_root
  have hnone : tree.previousSiblings rootId = [] := by
    rw [previousSiblings, hprevious]
    cases tree.size <;> rfl
  rw [place, hgrown.linked.ancestors_root, hnone, hnext]
  rfl

end Tree

end CanonicalMarkdown.Document
