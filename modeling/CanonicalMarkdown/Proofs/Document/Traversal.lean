import CanonicalMarkdown.Document.Element
import CanonicalMarkdown.Proofs.Document.Family
import Mathlib.Data.List.Nodup
import Mathlib.Logic.Relation

namespace CanonicalMarkdown.Document

namespace Element

/-! The numbers of an element's nodes, each before those below it. -/

mutual

def ids : Element → List NodeId
  | .mk id _ children => id :: idsOfAll children

def idsOfAll : List Element → List NodeId
  | [] => []
  | element :: rest => element.ids ++ idsOfAll rest

end

theorem idsOfAll_eq (elements : List Element) : idsOfAll elements = elements.flatMap ids := by
  induction elements with
  | nil => rfl
  | cons element rest ih => rw [idsOfAll, ih, List.flatMap_cons]

end Element

namespace Tree

/-- `id` is `other` or one of the nodes that following parents from `other` meets. -/
def Above (tree : Tree) (id other : NodeId) : Prop :=
  Relation.ReflTransGen (fun child parent => tree.parentOf child = some parent) other id

theorem parentOf_rightUnique (tree : Tree) :
    Relator.RightUnique fun child parent => tree.parentOf child = some parent := by
  intro child first second hfirst hsecond
  exact Option.some.inj (hfirst.symm.trans hsecond)

def idsWithin (tree : Tree) : (depth : Nat) → NodeId → List NodeId
  | 0, id => [id]
  | depth + 1, id => id :: (tree.children id).flatMap (tree.idsWithin depth)

namespace Linked

variable {tree : Tree} (hlinked : tree.Linked)
include hlinked

theorem children_eq (id : NodeId) : tree.children id = tree.offspring id := by
  apply (hlinked.forward id).follow_eq
  calc
    (tree.offspring id).length ≤ (List.range tree.size).length := List.length_filter_le ..
    _ = tree.size := List.length_range

theorem firstOf_eq_none_iff (id : NodeId) :
    tree.firstOf id = none ↔ tree.offspring id = [] := by
  rw [← (hlinked.forward id).head?_eq, List.head?_eq_none_iff]

theorem lastOf_eq_none_iff (id : NodeId) :
    tree.lastOf id = none ↔ tree.offspring id = [] := by
  rw [← (hlinked.backward id).head?_eq, List.head?_eq_none_iff, List.reverse_eq_nil_iff]

/-! Parents lead from every node to the root. -/

theorem of_root_of_parent {motive : NodeId → Prop} (root : motive rootId)
    (child : ∀ id parent, tree.parentOf id = some parent → motive parent → motive id)
    {id : NodeId} (hid : id < tree.size) : motive id := by
  induction id using Nat.strongRecOn with
  | ind id ih =>
      by_cases hroot : id = rootId
      · rw [hroot]
        exact root
      · obtain ⟨parent, hparent⟩ := hlinked.exists_parent id hid hroot
        have hlt := hlinked.parent_lt id parent hparent
        exact child id parent hparent (ih parent hlt (Nat.lt_trans hlt hid))

theorem exists_path {id : NodeId} (hid : id < tree.size) :
    ∃ path, Chain tree.parentOf (tree.parentOf id) path ∧ path.length ≤ id ∧
      (id :: path).getLast? = some rootId := by
  refine hlinked.of_root_of_parent (motive := fun id => ∃ path, Chain tree.parentOf
    (tree.parentOf id) path ∧ path.length ≤ id ∧ (id :: path).getLast? = some rootId) ?_ ?_ hid
  · refine ⟨[], ?_, Nat.zero_le _, rfl⟩
    rw [hlinked.root_parent]
    exact .stop
  · rintro id parent hparent ⟨path, hchain, hlength, hlast⟩
    have hlt := hlinked.parent_lt id parent hparent
    refine ⟨parent :: path, ?_, Nat.le_trans (Nat.succ_le_succ hlength) hlt, ?_⟩
    · rw [hparent]
      exact .link hchain
    · rw [List.getLast?_cons_cons]
      exact hlast

theorem ancestors_chain {id : NodeId} (hid : id < tree.size) :
    Chain tree.parentOf (tree.parentOf id) (tree.ancestors id) ∧
      (id :: tree.ancestors id).getLast? = some rootId := by
  obtain ⟨path, hchain, hlength, hlast⟩ := hlinked.exists_path hid
  have hpath : tree.ancestors id = path :=
    hchain.follow_eq (Nat.le_trans hlength (Nat.le_of_lt hid))
  rw [hpath]
  exact ⟨hchain, hlast⟩

theorem above_of_lt {id : NodeId} (hid : id < tree.size) : tree.Above rootId id :=
  hlinked.of_root_of_parent (motive := tree.Above rootId) .refl
    (fun _ _ hparent habove => .head hparent habove) hid

theorem le_of_above {id other : NodeId} (habove : tree.Above id other) : id ≤ other := by
  induction habove using Relation.ReflTransGen.head_induction_on with
  | refl => exact Nat.le_refl id
  | head hparent _ ih => exact Nat.le_trans ih (Nat.le_of_lt (hlinked.parent_lt _ _ hparent))

/-- No node is below two children of one parent. -/
theorem above_sibling {parent left right : NodeId} (hleft : tree.parentOf left = some parent)
    (hright : tree.parentOf right = some parent) (habove : tree.Above left right) :
    left = right := by
  rcases Relation.ReflTransGen.cases_head habove with heq | ⟨above, hparent, habove⟩
  · exact heq.symm
  · cases hright.symm.trans hparent
    exact absurd (hlinked.le_of_above habove) (Nat.not_le_of_lt (hlinked.parent_lt _ _ hleft))

/-! Every node below a given one is met once. -/

theorem ids_elementWithin (depth : Nat) (id : NodeId) (node : Node) :
    (tree.elementWithin depth id node).ids = tree.idsWithin depth id := by
  induction depth generalizing id node with
  | zero => rfl
  | succ depth ih =>
      rw [elementWithin, Element.ids, Element.idsOfAll_eq, idsWithin,
        List.filterMap_eq_flatMap_toList, List.flatMap_assoc]
      congr 1
      apply List.flatMap_congr
      intro child hchild
      rw [hlinked.children_eq] at hchild
      obtain ⟨entry, hentry⟩ := exists_get?_of_lt (lt_of_mem_offspring hchild)
      simp [node?, hentry, ih]

theorem child_within {depth : Nat} {id child : NodeId} (hdepth : tree.size ≤ depth + 1 + id)
    (hchild : child ∈ tree.offspring id) : tree.size ≤ depth + child ∧ child < tree.size := by
  have hlt := hlinked.parent_lt child id (mem_offspring.mp hchild)
  refine ⟨Nat.le_trans hdepth ?_, lt_of_mem_offspring hchild⟩
  rw [Nat.add_right_comm]
  exact Nat.add_lt_add_left hlt depth

theorem mem_idsWithin {depth : Nat} {id other : NodeId} (hdepth : tree.size ≤ depth + id)
    (hid : id < tree.size) : other ∈ tree.idsWithin depth id ↔ tree.Above id other := by
  induction depth generalizing id with
  | zero => exact absurd hid (by simpa using hdepth)
  | succ depth ih =>
      have hbelow : ∀ child ∈ tree.offspring id,
          (other ∈ tree.idsWithin depth child ↔ tree.Above child other) := by
        intro child hchild
        obtain ⟨hdepth, hlt⟩ := hlinked.child_within hdepth hchild
        exact ih hdepth hlt
      rw [idsWithin, List.mem_cons, List.mem_flatMap, hlinked.children_eq, Above,
        Relation.ReflTransGen.cases_tail_iff]
      constructor
      · rintro (rfl | ⟨child, hchild, hmem⟩)
        · exact .inl rfl
        · exact .inr ⟨child, (hbelow child hchild).mp hmem, mem_offspring.mp hchild⟩
      · rintro (rfl | ⟨child, habove, hparent⟩)
        · exact .inl rfl
        · have hchild := mem_offspring.mpr hparent
          exact .inr ⟨child, hchild, (hbelow child hchild).mpr habove⟩

theorem nodup_idsWithin {depth : Nat} {id : NodeId} (hdepth : tree.size ≤ depth + id)
    (hid : id < tree.size) : (tree.idsWithin depth id).Nodup := by
  induction depth generalizing id with
  | zero => exact List.nodup_singleton id
  | succ depth ih =>
      have habove : ∀ child ∈ tree.offspring id, ∀ other ∈ tree.idsWithin depth child,
          tree.Above child other := by
        intro child hchild other hother
        obtain ⟨hdepth, hlt⟩ := hlinked.child_within hdepth hchild
        exact (hlinked.mem_idsWithin hdepth hlt).mp hother
      rw [idsWithin, hlinked.children_eq, List.nodup_cons, List.nodup_flatMap]
      refine ⟨?_, ?_, ?_⟩
      · rw [List.mem_flatMap]
        rintro ⟨child, hchild, hself⟩
        have hle := hlinked.le_of_above (habove child hchild id hself)
        exact Nat.not_le_of_lt (hlinked.parent_lt child id (mem_offspring.mp hchild)) hle
      · intro child hchild
        obtain ⟨hdepth, hlt⟩ := hlinked.child_within hdepth hchild
        exact ih hdepth hlt
      · -- A node below two siblings would put one of them below the other.
        apply (tree.nodup_offspring id).imp_of_mem
        intro left right hleft hright hne other hotherLeft hotherRight
        have hparentLeft := mem_offspring.mp hleft
        have hparentRight := mem_offspring.mp hright
        rcases Relation.ReflTransGen.total_of_right_unique tree.parentOf_rightUnique
          (habove left hleft other hotherLeft) (habove right hright other hotherRight) with h | h
        · exact hne (hlinked.above_sibling hparentRight hparentLeft h).symm
        · exact hne (hlinked.above_sibling hparentLeft hparentRight h)

theorem ids_root_perm : tree.root.ids.Perm (List.range tree.size) := by
  have hdepth : tree.size ≤ tree.size + rootId := Nat.le_add_right ..
  rw [root, hlinked.ids_elementWithin,
    List.perm_ext_iff_of_nodup (hlinked.nodup_idsWithin hdepth hlinked.root_mem) List.nodup_range]
  intro id
  rw [hlinked.mem_idsWithin hdepth hlinked.root_mem, List.mem_range]
  constructor
  · intro habove
    rcases Relation.ReflTransGen.cases_head habove with heq | ⟨parent, hparent, -⟩
    · rw [heq]
      exact hlinked.root_mem
    · exact lt_of_mem_offspring (mem_offspring.mpr hparent)
  · exact hlinked.above_of_lt

end Linked

/-- One rooted tree whose nodes have an order: every link of a node agrees with the parents. -/
structure Rooted (tree : Tree) : Prop where
  root_parent : tree.parentOf rootId = none
  parent_lt : ∀ id < tree.size, id ≠ rootId → ∃ parent < id, tree.parentOf id = some parent
  children_forward : ∀ id, Chain tree.nextOf (tree.firstOf id) (tree.children id)
  children_backward : ∀ id, Chain tree.previousOf (tree.lastOf id) (tree.children id).reverse
  mem_children : ∀ id child, child ∈ tree.children id ↔ tree.parentOf child = some id
  children_increasing : ∀ id, (tree.children id).Pairwise (· < ·)
  first_iff_last : ∀ id, tree.firstOf id = none ↔ tree.lastOf id = none
  first_iff_children : ∀ id, tree.firstOf id = none ↔ tree.children id = []
  ancestors_chain : ∀ id < tree.size, Chain tree.parentOf (tree.parentOf id) (tree.ancestors id)
  ancestors_root : ∀ id < tree.size, (id :: tree.ancestors id).getLast? = some rootId
  traversal : tree.root.ids.Perm (List.range tree.size)

theorem Linked.rooted {tree : Tree} (hlinked : tree.Linked) : tree.Rooted where
  root_parent := hlinked.root_parent
  parent_lt id hid hroot := by
    obtain ⟨parent, hparent⟩ := hlinked.exists_parent id hid hroot
    exact ⟨parent, hlinked.parent_lt id parent hparent, hparent⟩
  children_forward id := by
    rw [hlinked.children_eq]
    exact hlinked.forward id
  children_backward id := by
    rw [hlinked.children_eq]
    exact hlinked.backward id
  mem_children id child := by
    rw [hlinked.children_eq]
    exact mem_offspring
  children_increasing id := by
    rw [hlinked.children_eq]
    exact List.pairwise_lt_range.filter _
  first_iff_last id := by rw [hlinked.firstOf_eq_none_iff, hlinked.lastOf_eq_none_iff]
  first_iff_children id := by rw [hlinked.firstOf_eq_none_iff, hlinked.children_eq]
  ancestors_chain id hid := (hlinked.ancestors_chain hid).1
  ancestors_root id hid := (hlinked.ancestors_chain hid).2
  traversal := hlinked.ids_root_perm

/-! What an operation leaves as it was. -/

/-- The links of a node: parent, first and last child, previous and next sibling. -/
def links? (tree : Tree) (id : NodeId) : Option (List (Option NodeId)) :=
  (tree.get? id).map fun entry =>
    [entry.parent, entry.first, entry.last, entry.previous, entry.next]

theorem links?_set (tree : Tree) (id : NodeId) (node : Node) (other : NodeId) :
    (tree.set id node).links? other = tree.links? other := by
  rw [links?, get?_set, Option.map_map]
  rfl

theorem links?_append {tree grown : Tree} {parent id other : NodeId} {node : Node}
    (happend : tree.append? parent node = some (id, grown)) (hid : other ≠ id)
    (hparent : other ≠ parent) (hlast : tree.lastOf parent ≠ some other) :
    grown.links? other = tree.links? other := by
  rw [links?, get?_append happend, if_neg hid, Option.map_map]
  congr 1
  funext entry
  simp [relinked, hparent, hlast]

theorem Grown.rooted_and_framed {tree : Tree} (hgrown : tree.Grown) :
    tree.Rooted ∧
      (∀ id node other, (tree.set id node).links? other = tree.links? other) ∧
      (∀ parent node id grown, tree.append? parent node = some (id, grown) → ∀ other, other ≠ id →
        grown.node? other = tree.node? other ∧
          (other ≠ parent → tree.lastOf parent ≠ some other →
            grown.links? other = tree.links? other)) ∧
      (∀ parent node, tree.append? parent node = none ↔ tree.size ≤ parent) := by
  refine ⟨hgrown.linked.rooted, tree.links?_set, ?_, tree.append?_eq_none_iff⟩
  intro parent node id grown happend other hid
  constructor
  · rw [node?_append happend, if_neg hid]
  · exact links?_append happend hid

/-- A list of two items, the first of which got its content last. -/
def twoItems : Tree :=
  ((((Tree.new.appended rootId (.list false 1)).appended 1 .listItem).appended 1 .listItem).appended
    2 .paragraph).set 1 (.list true 3)

theorem twoItems_grown : twoItems.Grown :=
  .set 1 _ (.append (.append (.append (.append .new (append?_of_lt (by decide) _))
    (append?_of_lt (by decide) _)) (append?_of_lt (by decide) _)) (append?_of_lt (by decide) _))

theorem twoItems_rooted_and_framed :
    twoItems.Grown ∧ twoItems.root.ids = [0, 1, 2, 4, 3] ∧ twoItems.Rooted ∧
      (∀ other, (twoItems.set 2 .listItem).links? other = twoItems.links? other) ∧
      twoItems.append? 5 .paragraph = none :=
  ⟨twoItems_grown, by decide, (Grown.rooted_and_framed twoItems_grown).1,
    (Grown.rooted_and_framed twoItems_grown).2.1 2 .listItem,
    ((Grown.rooted_and_framed twoItems_grown).2.2.2 5 .paragraph).mpr (by decide)⟩

end Tree

end CanonicalMarkdown.Document
