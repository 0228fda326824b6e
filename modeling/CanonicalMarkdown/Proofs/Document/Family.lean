import CanonicalMarkdown.Document.Element
import CanonicalMarkdown.Proofs.Document.Links
import Mathlib.Logic.Relation

namespace CanonicalMarkdown.Document

namespace Tree

/-- The trees that appending nodes and replacing what they hold can make. -/
inductive Grown : Tree → Prop
  | new : Grown Tree.new
  | append {tree grown : Tree} {parent id : NodeId} {node : Node} :
      Grown tree → tree.append? parent node = some (id, grown) → Grown grown
  | set {tree : Tree} (id : NodeId) (node : Node) : Grown tree → Grown (tree.set id node)

/-- The nodes with the given parent, in the order of their numbers. -/
def offspring (tree : Tree) (parent : NodeId) : List NodeId :=
  (List.range tree.size).filter fun id => tree.parentOf id = some parent

theorem mem_offspring {tree : Tree} {parent id : NodeId} :
    id ∈ tree.offspring parent ↔ tree.parentOf id = some parent := by
  simp only [offspring, List.mem_filter, List.mem_range, decide_eq_true_eq, and_iff_right_iff_imp]
  intro hparent
  obtain ⟨entry, hentry, -⟩ := Option.bind_eq_some_iff.mp hparent
  exact lt_of_get? hentry

theorem lt_of_mem_offspring {tree : Tree} {parent id : NodeId} (hid : id ∈ tree.offspring parent) :
    id < tree.size :=
  List.mem_range.mp (List.mem_filter.mp hid).1

theorem nodup_offspring (tree : Tree) (parent : NodeId) : (tree.offspring parent).Nodup :=
  List.nodup_range.filter _

/-- The links of a tree: parents come before their children, and the links between siblings lead
through all children of a node, in both directions. -/
structure Linked (tree : Tree) : Prop where
  root_mem : rootId < tree.size
  root_parent : tree.parentOf rootId = none
  exists_parent : ∀ id, id < tree.size → id ≠ rootId → ∃ parent, tree.parentOf id = some parent
  parent_lt : ∀ id parent, tree.parentOf id = some parent → parent < id
  forward : ∀ id, Chain tree.nextOf (tree.firstOf id) (tree.offspring id)
  backward : ∀ id, Chain tree.previousOf (tree.lastOf id) (tree.offspring id).reverse

/-! A new tree has no links. -/

theorem get?_new (id : NodeId) :
    Tree.new.get? id = if id = rootId then some { node := .document } else none := by
  cases id with
  | zero => rfl
  | succ id => simp [Tree.new, get?, rootId]

theorem parentOf_new (id : NodeId) : Tree.new.parentOf id = none := by
  rw [parentOf, get?_new]
  split <;> rfl

theorem firstOf_new (id : NodeId) : Tree.new.firstOf id = none := by
  rw [firstOf, get?_new]
  split <;> rfl

theorem lastOf_new (id : NodeId) : Tree.new.lastOf id = none := by
  rw [lastOf, get?_new]
  split <;> rfl

theorem offspring_new (id : NodeId) : Tree.new.offspring id = [] := by
  simp [offspring, parentOf_new]

theorem linked_new : Linked Tree.new where
  root_mem := by decide
  root_parent := rfl
  exists_parent id hid hne := absurd (Nat.lt_one_iff.mp hid) hne
  parent_lt id parent hparent := by
    rw [parentOf_new] at hparent
    cases hparent
  forward id := by
    rw [firstOf_new, offspring_new]
    exact .stop
  backward id := by
    rw [lastOf_new, offspring_new]
    exact .stop

/-! Replacing what a node holds changes no link. -/

section

variable (tree : Tree) (id : NodeId) (node : Node)

theorem size_set : (tree.set id node).size = tree.size := by
  simp [set, size]

theorem parentOf_set : (tree.set id node).parentOf = tree.parentOf := by
  funext other
  rw [parentOf, get?_set, Option.bind_map]
  rfl

theorem firstOf_set : (tree.set id node).firstOf = tree.firstOf := by
  funext other
  rw [firstOf, get?_set, Option.bind_map]
  rfl

theorem lastOf_set : (tree.set id node).lastOf = tree.lastOf := by
  funext other
  rw [lastOf, get?_set, Option.bind_map]
  rfl

theorem previousOf_set : (tree.set id node).previousOf = tree.previousOf := by
  funext other
  rw [previousOf, get?_set, Option.bind_map]
  rfl

theorem nextOf_set : (tree.set id node).nextOf = tree.nextOf := by
  funext other
  rw [nextOf, get?_set, Option.bind_map]
  rfl

theorem offspring_set : (tree.set id node).offspring = tree.offspring := by
  funext parent
  simp [offspring, size_set, parentOf_set]

end

theorem Linked.set {tree : Tree} (hlinked : tree.Linked) (id : NodeId) (node : Node) :
    (tree.set id node).Linked := by
  obtain ⟨hroot, hrootParent, hexists, hlt, hforward, hbackward⟩ := hlinked
  constructor <;>
    simpa only [size_set, parentOf_set, firstOf_set, lastOf_set, previousOf_set, nextOf_set,
      offspring_set]

/-! An appended node is the last of its siblings. -/

section

variable {tree grown : Tree} {parent id : NodeId} {node : Node}

theorem offspring_append (happend : tree.append? parent node = some (id, grown))
    (other : NodeId) :
    grown.offspring other =
      if other = parent then tree.offspring parent ++ [id] else tree.offspring other := by
  obtain ⟨-, hid, -⟩ := append?_eq_some happend
  have hold : (List.range tree.size).filter (fun child => grown.parentOf child = some other) =
      tree.offspring other := by
    apply List.filter_congr
    intro child hchild
    have hne : child ≠ id := by
      rw [hid]
      exact Nat.ne_of_lt (List.mem_range.mp hchild)
    rw [parentOf_append happend, if_neg hne]
  rw [offspring, size_append happend, List.range_succ, List.filter_append, hold, ← hid]
  split
  · next heq =>
      subst heq
      simp [parentOf_append happend]
  · next hne => simp [parentOf_append happend, Ne.symm hne]

namespace Linked

variable (hlinked : tree.Linked)
include hlinked

theorem offspring_eq_nil_of_lastOf (hlast : tree.lastOf parent = none) :
    tree.offspring parent = [] := by
  have hbackward := hlinked.backward parent
  rw [hlast] at hbackward
  simpa using hbackward.head?_eq

theorem offspring_eq_append_of_lastOf {sibling : NodeId}
    (hlast : tree.lastOf parent = some sibling) :
    ∃ front, tree.offspring parent = front ++ [sibling] := by
  have hbackward := hlinked.backward parent
  rw [hlast] at hbackward
  have hhead := hbackward.head?_eq
  rw [List.head?_reverse] at hhead
  exact List.getLast?_eq_some_iff.mp hhead

theorem offspring_eq_nil_of_size_le {id : NodeId} (hid : tree.size ≤ id) :
    tree.offspring id = [] := by
  rw [List.eq_nil_iff_forall_not_mem]
  intro child hchild
  have hlt := hlinked.parent_lt child id (mem_offspring.mp hchild)
  exact Nat.not_lt_of_le hid (Nat.lt_trans hlt (lt_of_mem_offspring hchild))

theorem parentOf_of_lastOf {sibling : NodeId} (hlast : tree.lastOf parent = some sibling) :
    tree.parentOf sibling = some parent := by
  obtain ⟨front, hfront⟩ := hlinked.offspring_eq_append_of_lastOf hlast
  apply mem_offspring.mp
  simp [hfront]

section

variable (happend : tree.append? parent node = some (id, grown))
include happend

/-- The new node is reached from the child that was last before, if there was one. -/
theorem forward_append_parent :
    Chain grown.nextOf (grown.firstOf parent) (tree.offspring parent ++ [id]) := by
  obtain ⟨hparent, hid, -⟩ := append?_eq_some happend
  have hself : Chain grown.nextOf (grown.nextOf id) [] := by
    rw [nextOf_append_self happend]
    exact .stop
  rw [firstOf_append happend, if_neg (hid ▸ Nat.ne_of_lt hparent)]
  cases hlast : tree.lastOf parent with
  | none =>
      rw [hlinked.offspring_eq_nil_of_lastOf hlast, if_pos ⟨rfl, rfl⟩]
      exact .link hself
  | some sibling =>
      obtain ⟨front, hfront⟩ := hlinked.offspring_eq_append_of_lastOf hlast
      have hchain := hlinked.forward parent
      have hnodup := tree.nodup_offspring parent
      have hlt : ∀ child ∈ tree.offspring parent, child < tree.size :=
        fun _ => lt_of_mem_offspring
      rw [hfront] at hchain hnodup hlt ⊢
      rw [if_neg (by simp), List.append_assoc]
      apply hchain.redirect
      · intro child hchild
        have hsibling : sibling ≠ child := by
          rintro rfl
          exact (List.nodup_append.mp hnodup).2.2 _ hchild _ (by simp) rfl
        rw [nextOf_append happend (hlt child (by simp [hchild])), hlast,
          if_neg (by simpa using hsibling)]
      · rw [nextOf_append happend (hlt sibling (by simp)), hlast, if_pos rfl]
        exact .link hself

theorem forward_append_of_ne {other : NodeId} (hother : other ≠ parent) :
    Chain grown.nextOf (grown.firstOf other) (tree.offspring other) := by
  obtain ⟨-, hid, -⟩ := append?_eq_some happend
  have hkept : ∀ child ∈ tree.offspring other, grown.nextOf child = tree.nextOf child := by
    intro child hchild
    rw [nextOf_append happend (lt_of_mem_offspring hchild), if_neg]
    intro hlast
    have hboth := (hlinked.parentOf_of_lastOf hlast).symm.trans (mem_offspring.mp hchild)
    exact hother (Option.some.inj hboth).symm
  have hchain := (hlinked.forward other).congr hkept
  have hfirst : ¬(other = parent ∧ tree.lastOf parent = none) := fun h => hother h.1
  rw [firstOf_append happend, if_neg hfirst]
  split
  · next heq =>
      rw [firstOf, get?_eq_none (Nat.le_of_eq (heq.trans hid).symm)] at hchain
      exact hchain
  · exact hchain

theorem forward_append (other : NodeId) :
    Chain grown.nextOf (grown.firstOf other) (grown.offspring other) := by
  rw [offspring_append happend]
  split
  · next heq =>
      rw [heq]
      exact hlinked.forward_append_parent happend
  · next hne => exact hlinked.forward_append_of_ne happend hne

theorem backward_append (other : NodeId) :
    Chain grown.previousOf (grown.lastOf other) (grown.offspring other).reverse := by
  obtain ⟨hparent, hid, -⟩ := append?_eq_some happend
  have hkept : ∀ child ∈ (tree.offspring other).reverse,
      grown.previousOf child = tree.previousOf child := by
    intro child hchild
    have hlt := lt_of_mem_offspring (List.mem_reverse.mp hchild)
    rw [previousOf_append happend, if_neg (hid ▸ Nat.ne_of_lt hlt)]
  have hchain := (hlinked.backward other).congr hkept
  rw [offspring_append happend, lastOf_append happend]
  by_cases hother : other = parent
  · subst hother
    rw [if_pos rfl, if_neg (hid ▸ Nat.ne_of_lt hparent), if_pos rfl, List.reverse_append]
    apply Chain.link
    rw [previousOf_append happend, if_pos rfl]
    exact hchain
  · rw [if_neg hother, if_neg hother]
    split
    · next heq =>
        rw [lastOf, get?_eq_none (Nat.le_of_eq (heq.trans hid).symm)] at hchain
        exact hchain
    · exact hchain

theorem append : grown.Linked where
  root_mem := by
    rw [size_append happend]
    exact Nat.lt_succ_of_lt hlinked.root_mem
  root_parent := by
    obtain ⟨-, hid, -⟩ := append?_eq_some happend
    rw [parentOf_append happend, if_neg (hid ▸ Nat.ne_of_lt hlinked.root_mem)]
    exact hlinked.root_parent
  exists_parent other hother hroot := by
    obtain ⟨-, hid, -⟩ := append?_eq_some happend
    rw [parentOf_append happend]
    split
    · exact ⟨parent, rfl⟩
    · next hne =>
        rw [size_append happend] at hother
        have hlt := Nat.lt_of_le_of_ne (Nat.le_of_lt_succ hother) (hid ▸ hne)
        exact hlinked.exists_parent other hlt hroot
  parent_lt other above habove := by
    obtain ⟨hparent, hid, -⟩ := append?_eq_some happend
    rw [parentOf_append happend] at habove
    split at habove
    · next heq =>
        cases habove
        rw [heq, hid]
        exact hparent
    · exact hlinked.parent_lt other above habove
  forward := hlinked.forward_append happend
  backward := hlinked.backward_append happend

end

end Linked

end

theorem Grown.linked {tree : Tree} (hgrown : tree.Grown) : tree.Linked := by
  induction hgrown with
  | new => exact linked_new
  | append _ happend ih => exact ih.append happend
  | set id node _ ih => exact ih.set id node

end Tree

end CanonicalMarkdown.Document
