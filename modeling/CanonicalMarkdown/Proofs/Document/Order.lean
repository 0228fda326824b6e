import CanonicalMarkdown.Proofs.Document.Origin
import Mathlib.Data.List.Sort

namespace CanonicalMarkdown.Document

namespace Tree

/-! Nodes whose numbers follow the document. -/

/-- All that is below a node is older than the siblings after it. -/
def Orderly (tree : Tree) : Prop :=
  ∀ parent left right other, tree.parentOf left = some parent → tree.parentOf right = some parent →
    left < right → tree.Above left other → other < right

theorem Linked.pairwise_idsWithin {tree : Tree} (hlinked : tree.Linked) (horderly : tree.Orderly)
    {depth : Nat} {id : NodeId} (hdepth : tree.size ≤ depth + id) (hid : id < tree.size) :
    (tree.idsWithin depth id).Pairwise (· < ·) := by
  induction depth generalizing id with
  | zero => exact List.pairwise_singleton _ id
  | succ depth ih =>
      have habove : ∀ child ∈ tree.offspring id, ∀ other ∈ tree.idsWithin depth child,
          tree.Above child other := by
        intro child hchild other hother
        obtain ⟨hdepth, hlt⟩ := hlinked.child_within hdepth hchild
        exact (hlinked.mem_idsWithin hdepth hlt).mp hother
      rw [idsWithin, hlinked.children_eq, List.pairwise_cons, List.pairwise_flatMap]
      refine ⟨?_, ?_, ?_⟩
      · intro other hother
        obtain ⟨child, hchild, hother⟩ := List.mem_flatMap.mp hother
        have hle := hlinked.le_of_above (habove child hchild other hother)
        exact Nat.lt_of_lt_of_le (hlinked.parent_lt child id (mem_offspring.mp hchild)) hle
      · intro child hchild
        obtain ⟨hdepth, hlt⟩ := hlinked.child_within hdepth hchild
        exact ih hdepth hlt
      · have hsorted : (tree.offspring id).Pairwise (· < ·) := List.pairwise_lt_range.filter _
        apply hsorted.imp_of_mem
        intro left right hleft hright hlt earlier hearlier later hlater
        have hbefore : earlier < right := horderly id left right earlier
          (mem_offspring.mp hleft) (mem_offspring.mp hright) hlt
          (habove left hleft earlier hearlier)
        exact Nat.lt_of_lt_of_le hbefore (hlinked.le_of_above (habove right hright later hlater))

/-- A traversal meets the nodes in the order of their numbers. -/
theorem Linked.ids_root_eq_range {tree : Tree} (hlinked : tree.Linked)
    (horderly : tree.Orderly) : tree.root.ids = List.range tree.size := by
  have hsorted : tree.root.ids.Pairwise (· < ·) := by
    rw [root, hlinked.ids_elementWithin]
    exact hlinked.pairwise_idsWithin horderly (Nat.le_add_right ..) hlinked.root_mem
  exact List.Perm.eq_of_pairwise' hsorted List.pairwise_lt_range hlinked.ids_root_perm

/-! What is above a node does not change when others are appended. -/

section

variable {tree grown : Tree} {parent id : NodeId} {node : Node} (hlinked : tree.Linked)
  (happend : tree.append? parent node = some (id, grown))
include hlinked happend

theorem Linked.above_append {upper lower : NodeId} (hlower : lower < tree.size) :
    grown.Above upper lower ↔ tree.Above upper lower := by
  obtain ⟨-, hid, -⟩ := append?_eq_some happend
  have hsame : ∀ other < tree.size, grown.parentOf other = tree.parentOf other := by
    intro other hother
    rw [parentOf_append happend, if_neg (hid ▸ Nat.ne_of_lt hother)]
  constructor
  · intro habove
    revert hlower
    induction habove using Relation.ReflTransGen.head_induction_on with
    | refl => exact fun _ => .refl
    | @head child above hparent _ ih =>
        intro hchild
        rw [hsame child hchild] at hparent
        exact .head hparent (ih (Nat.lt_trans (hlinked.parent_lt child above hparent) hchild))
  · refine Relation.ReflTransGen.mono ?_ lower upper
    intro child above hparent
    rw [hsame child (lt_of_parentOf hparent)]
    exact hparent

theorem Linked.above_append_self {upper : NodeId} :
    grown.Above upper id ↔ upper = id ∨ tree.Above upper parent := by
  obtain ⟨hparent, hid, -⟩ := append?_eq_some happend
  have hself : grown.parentOf id = some parent := by rw [parentOf_append happend, if_pos rfl]
  rw [← hlinked.above_append happend hparent]
  constructor
  · intro habove
    rcases Relation.ReflTransGen.cases_head habove with heq | ⟨above, habove, hrest⟩
    · exact .inl heq.symm
    · cases hself.symm.trans habove
      exact .inr hrest
  · rintro (rfl | habove)
    · exact .refl
    · exact .head hself habove

/-- The order of the document is kept by appends to the newest node and to those above it. -/
theorem Orderly.append (horderly : tree.Orderly) (habove : tree.Above parent (tree.size - 1)) :
    grown.Orderly := by
  obtain ⟨hparent, hid, -⟩ := append?_eq_some happend
  intro upper left right other hleft hright hlt hother
  have hrightLt : right ≤ id := by
    have hbound := lt_of_parentOf hright
    rw [size_append happend, ← hid] at hbound
    exact Nat.le_of_lt_succ hbound
  have hleftLt : left < tree.size := hid ▸ Nat.lt_of_lt_of_le hlt hrightLt
  rw [parentOf_append happend, if_neg (hid ▸ Nat.ne_of_lt hleftLt)] at hleft
  by_cases hnew : other = id
  · -- The new node is below `left` only if its parent is, and then `left` is above the newest node.
    subst hnew
    rcases (hlinked.above_append_self happend).mp hother with rfl | hbelow
    · exact absurd hlt (Nat.not_lt_of_le hrightLt)
    · rw [parentOf_append happend] at hright
      split at hright
      · cases hright
        exact absurd (hlinked.le_of_above hbelow)
          (Nat.not_le_of_lt (hlinked.parent_lt left _ hleft))
      · have hlast := horderly upper left right _ hleft hright hlt (habove.trans hbelow)
        exact absurd (lt_of_parentOf hright) (Nat.not_lt_of_le (Nat.le_of_pred_lt hlast))
  · rcases Relation.ReflTransGen.cases_head hother with rfl | ⟨above, hparentOf, -⟩
    · exact hlt
    · rw [parentOf_append happend, if_neg hnew] at hparentOf
      have hotherLt := lt_of_parentOf hparentOf
      have hbelow := (hlinked.above_append happend hotherLt).mp hother
      rw [parentOf_append happend] at hright
      split at hright
      · next heq => rwa [heq, hid]
      · exact horderly upper left right other hleft hright hlt hbelow

end

theorem above_set (tree : Tree) (id : NodeId) (node : Node) :
    (tree.set id node).Above = tree.Above := by
  funext upper lower
  rw [Above, parentOf_set]
  rfl

end Tree

namespace Stage

/-! Everything open is above the newest node, each frame above those inside it. -/

def openIds (stage : Stage) : List NodeId := stage.frames.filterMap Frame.id?

structure Ordered (stage : Stage) : Prop where
  orderly : stage.tree.Orderly
  spine : ((stage.tree.size - 1) :: stage.openIds).Pairwise fun lower upper =>
    stage.tree.Above upper lower

theorem parent_eq (stage : Stage) : stage.parent = stage.openIds.head?.getD Tree.rootId := by
  rw [parent, openIds, List.head?_filterMap]

namespace Ordered

variable {stage : Stage} (hordered : stage.Ordered)
include hordered

theorem popped {frame : Frame} {frames : List Frame} (hframes : stage.frames = frame :: frames) :
    Ordered { stage with frames } := by
  have hsublist : (frames.filterMap Frame.id?).Sublist stage.openIds := by
    rw [openIds, hframes]
    exact (List.sublist_cons_self frame frames).filterMap Frame.id?
  exact ⟨hordered.orderly, hordered.spine.sublist (hsublist.cons_cons _)⟩

theorem pushed {frame : Frame} (hframe : frame.id? = none) : (stage.pushed frame).Ordered := by
  have hids : (stage.pushed frame).openIds = stage.openIds := List.filterMap_cons_none hframe
  refine ⟨hordered.orderly, ?_⟩
  rw [hids]
  exact hordered.spine

theorem pushed_last {frame : Frame} (hframe : frame.id? = some (stage.tree.size - 1)) :
    (stage.pushed frame).Ordered := by
  have hids : (stage.pushed frame).openIds = (stage.tree.size - 1) :: stage.openIds :=
    List.filterMap_cons_some hframe
  refine ⟨hordered.orderly, ?_⟩
  rw [hids, List.pairwise_cons]
  refine ⟨?_, hordered.spine⟩
  intro upper hupper
  rcases List.mem_cons.mp hupper with rfl | hupper
  · exact .refl
  · exact (List.pairwise_cons.mp hordered.spine).1 upper hupper

variable (hlinked : stage.tree.Linked)
include hlinked

theorem parent_above : stage.tree.Above stage.parent (stage.tree.size - 1) := by
  rw [parent_eq]
  cases hids : stage.openIds with
  | nil =>
      exact hlinked.above_of_lt (Nat.sub_lt hlinked.root_mem Nat.one_pos)
  | cons id rest =>
      apply (List.pairwise_cons.mp hordered.spine).1
      rw [hids]
      exact List.mem_cons_self

theorem added (node : Node) : (stage.added node).Ordered := by
  have habove := hordered.parent_above hlinked
  have hlast : stage.tree.size - 1 < stage.tree.size := Nat.sub_lt hlinked.root_mem Nat.one_pos
  have hparent : stage.parent < stage.tree.size :=
    Nat.lt_of_le_of_lt (hlinked.le_of_above habove) hlast
  have happend := Tree.append?_of_lt hparent node
  have hids : (stage.added node).openIds = stage.openIds := rfl
  have hnewest : (stage.added node).tree.size - 1 = stage.tree.size := by
    rw [Stage.added, Tree.size_append happend]
    rfl
  -- The new node is below its parent, and so below all that is open around that.
  obtain ⟨hopen, hspine⟩ := List.pairwise_cons.mp hordered.spine
  have hopenLt : ∀ id ∈ stage.openIds, id < stage.tree.size := fun id hid =>
    Nat.lt_of_le_of_lt (hlinked.le_of_above (hopen id hid)) hlast
  refine ⟨hordered.orderly.append hlinked happend habove, ?_⟩
  rw [hids, hnewest, List.pairwise_cons]
  constructor
  · intro upper hupper
    refine (hlinked.above_append_self happend).mpr (.inr ?_)
    rw [parent_eq]
    cases hopenIds : stage.openIds with
    | nil =>
        rw [hopenIds] at hupper
        cases hupper
    | cons id rest =>
        rw [hopenIds] at hupper hspine
        rcases List.mem_cons.mp hupper with rfl | hupper
        · exact .refl
        · exact (List.pairwise_cons.mp hspine).1 upper hupper
  · apply hspine.imp_of_mem
    intro lower upper hlower _ habove
    exact (hlinked.above_append happend (hopenLt lower hlower)).mpr habove

end Ordered

theorem Move.ordered {made : List Node} {start finish : Stage} (hmove : Move made start finish)
    (hsound : start.Sound) (hordered : start.Ordered) : finish.Ordered := by
  have hlinked := hsound.grown.linked
  have hnewest : ∀ node, (start.added node).tree.size - 1 = start.tree.size := by
    intro node
    rw [Tree.size_append (hsound.append?_eq node)]
    rfl
  cases hmove with
  | push hid _ => exact hordered.pushed hid
  | pop => exact hordered.popped rfl
  | @add _ node _ => exact hordered.added hlinked node
  | @openNode _ node _ _ =>
      apply (hordered.added hlinked node).pushed_last
      rw [hnewest]
      rfl
  | openTextBlock =>
      apply (hordered.added hlinked .textBlock).pushed_last
      rw [hnewest]
      rfl
  | addCode code =>
      -- A code span is open just as long as it takes to add its code.
      have hspan := hordered.added hlinked .codeSpan
      have hopened : ((start.added .codeSpan).pushed (.node start.tree.size)).Ordered := by
        apply hspan.pushed_last
        rw [hnewest]
        rfl
      have hmiddle := hlinked.append (hsound.append?_eq .codeSpan)
      exact (hopened.added hmiddle (.string code)).popped rfl
  | breakLine hnode hbroken =>
      obtain ⟨horderly, hspine⟩ := hordered
      constructor
      · intro parent left right other
        simp only [Tree.parentOf_set, Tree.above_set]
        exact horderly parent left right other
      · simp only [Tree.size_set, Tree.above_set]
        exact hspine

theorem Moves.ordered {made : List Node} {start finish : Stage}
    (hmoves : Moves made start finish) (hsound : start.Sound) (hordered : start.Ordered) :
    finish.Ordered := by
  induction hmoves with
  | none => exact hordered
  | cons hmove _ ih => exact ih (hmove.sound hsound) (hmove.ordered hsound hordered)

end Stage

namespace Builder

open Stage

theorem ordered_new (source : Source) : (stage { source }).Ordered where
  orderly := by
    intro parent left right other hleft
    cases (Tree.parentOf_new left).symm.trans hleft
  spine := List.pairwise_singleton _ _

theorem Lawful.ordered_events {builder final : Builder} (hlawful : builder.Lawful)
    (hordered : builder.stage.Ordered) {stream : EventStream}
    (hevents : builder.events stream = .ok final) : final.stage.Ordered := by
  obtain ⟨made, hmoves⟩ := hlawful.moves_events hevents
  exact hmoves.ordered hlawful.sound hordered

end Builder

end CanonicalMarkdown.Document
