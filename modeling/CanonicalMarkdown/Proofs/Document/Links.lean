import CanonicalMarkdown.Document.Tree
import Mathlib.Data.List.Basic

namespace CanonicalMarkdown.Document

/-! What following links meets until there is none to follow. -/

inductive Chain (step : NodeId → Option NodeId) : Option NodeId → List NodeId → Prop
  | stop : Chain step none []
  | link {id : NodeId} {rest : List NodeId} :
      Chain step (step id) rest → Chain step (some id) (id :: rest)

namespace Chain

variable {step other : NodeId → Option NodeId} {start : Option NodeId} {ids : List NodeId}

theorem head?_eq (hchain : Chain step start ids) : ids.head? = start := by
  cases hchain with
  | stop => rfl
  | link _ => rfl

theorem congr (hchain : Chain step start ids) (hsame : ∀ id ∈ ids, other id = step id) :
    Chain other start ids := by
  induction hchain with
  | stop => exact .stop
  | link hrest ih =>
      apply Chain.link
      rw [hsame _ (by simp)]
      exact ih fun id hid => hsame id (by simp [hid])

/-- A chain whose last link is redirected goes on along the new one. -/
theorem redirect {last : NodeId} {front tail : List NodeId}
    (hchain : Chain step start (front ++ [last])) (hsame : ∀ id ∈ front, other id = step id)
    (htail : Chain other (other last) tail) : Chain other start (front ++ last :: tail) := by
  induction front generalizing start with
  | nil =>
      cases hchain with
      | link _ => exact .link htail
  | cons id front ih =>
      cases hchain with
      | link hrest =>
          apply Chain.link
          rw [hsame id (by simp)]
          exact ih hrest fun other hother => hsame other (by simp [hother])

theorem follow_eq (hchain : Chain step start ids) {count : Nat} (hcount : ids.length ≤ count) :
    Tree.follow step count start = ids := by
  induction hchain generalizing count with
  | stop => cases count <;> rfl
  | link hrest ih =>
      cases count with
      | zero => simp at hcount
      | succ count =>
          rw [Tree.follow, ih (by simpa using hcount)]

end Chain

namespace Tree

/-! What an operation does to each entry. -/

theorem get?_set (tree : Tree) (id : NodeId) (node : Node) (other : NodeId) :
    (tree.set id node).get? other =
      (tree.get? other).map fun entry =>
        { entry with node := if other = id then node else entry.node } := by
  by_cases hother : other = id
  · subst hother
    simp [set, get?, Array.getElem?_modify]
  · have hid : id ≠ other := fun heq => hother heq.symm
    simp [set, get?, Array.getElem?_modify, hid, hother]

theorem exists_get?_of_lt {tree : Tree} {id : NodeId} (hid : id < tree.size) :
    ∃ entry, tree.get? id = some entry :=
  ⟨tree.entries[id], Array.getElem?_eq_getElem hid⟩

theorem get?_eq_none {tree : Tree} {id : NodeId} (hid : tree.size ≤ id) : tree.get? id = none :=
  Array.getElem?_eq_none hid

theorem lt_of_get? {tree : Tree} {id : NodeId} {entry : Entry} (h : tree.get? id = some entry) :
    id < tree.size :=
  (Array.getElem?_eq_some_iff.mp h).1

theorem append?_eq_some {tree grown : Tree} {parent id : NodeId} {node : Node}
    (happend : tree.append? parent node = some (id, grown)) :
    parent < tree.size ∧ id = tree.size ∧ grown = ⟨(linkChild tree.entries parent id
      (tree.lastOf parent)).push
        { node, parent := some parent, previous := tree.lastOf parent }⟩ := by
  cases hparent : tree.get? parent with
  | none => simp [append?, hparent] at happend
  | some above =>
      have hlast : tree.lastOf parent = above.last := by simp [lastOf, hparent]
      have hlt := lt_of_get? hparent
      simp only [append?, hparent, Option.map_some, Option.some.injEq, Prod.mk.injEq] at happend
      obtain ⟨rfl, rfl⟩ := happend
      exact ⟨hlt, rfl, by rw [hlast]⟩

theorem append?_eq_none_iff (tree : Tree) (parent : NodeId) (node : Node) :
    tree.append? parent node = none ↔ tree.size ≤ parent := by
  simp [append?, get?, size]

/-- The tree with a new last child of `parent`. -/
def appended (tree : Tree) (parent : NodeId) (node : Node) : Tree :=
  ((tree.append? parent node).map Prod.snd).getD tree

theorem append?_of_lt {tree : Tree} {parent : NodeId} (hparent : parent < tree.size)
    (node : Node) : tree.append? parent node = some (tree.size, tree.appended parent node) := by
  obtain ⟨entry, hentry⟩ := exists_get?_of_lt hparent
  simp [appended, append?, hentry]

/-- The entry of a node once `id` has become the last child of `parent`, where `last` was. -/
def relinked (parent id : NodeId) (last : Option NodeId) (other : NodeId) (entry : Entry) : Entry :=
  { entry with
    first := if other = parent ∧ last = none then some id else entry.first
    last := if other = parent then some id else entry.last
    next := if last = some other then some id else entry.next }

theorem getElem?_linkChild (entries : Array Entry) (parent id : NodeId) (last : Option NodeId)
    (other : NodeId) :
    (linkChild entries parent id last)[other]? =
      entries[other]?.map (relinked parent id last other) := by
  cases last with
  | none =>
      simp only [linkChild, Array.getElem?_modify]
      cases entries[other]? with
      | none => simp
      | some entry =>
          by_cases hparent : parent = other
          · simp [relinked, hparent]
          · simp [relinked, hparent, Ne.symm hparent]
  | some sibling =>
      simp only [linkChild, Array.getElem?_modify]
      cases entries[other]? with
      | none => simp
      | some entry =>
          by_cases hparent : parent = other
          · by_cases hsibling : sibling = other <;> simp [relinked, hparent, hsibling]
          · by_cases hsibling : sibling = other <;>
              simp [relinked, hparent, Ne.symm hparent, hsibling]

theorem size_linkChild (entries : Array Entry) (parent id : NodeId) (last : Option NodeId) :
    (linkChild entries parent id last).size = entries.size := by
  cases last <;> simp [linkChild]

section

variable {tree grown : Tree} {parent id : NodeId} {node : Node}
  (happend : tree.append? parent node = some (id, grown))
include happend

theorem size_append : grown.size = tree.size + 1 := by
  obtain ⟨-, -, rfl⟩ := append?_eq_some happend
  simp [size, size_linkChild]

/-- Everything an append does: the new entry, and the links that lead to it. -/
theorem get?_append (other : NodeId) :
    grown.get? other =
      if other = id then
        some { node, parent := some parent, previous := tree.lastOf parent }
      else
        (tree.get? other).map (relinked parent id (tree.lastOf parent) other) := by
  obtain ⟨-, rfl, rfl⟩ := append?_eq_some happend
  simp only [get?, Array.getElem?_push, size_linkChild, getElem?_linkChild, size]
  rfl

theorem node?_append (other : NodeId) :
    grown.node? other = if other = id then some node else tree.node? other := by
  rw [node?, get?_append happend]
  split
  · rfl
  · rw [Option.map_map]
    rfl

theorem parentOf_append (other : NodeId) :
    grown.parentOf other = if other = id then some parent else tree.parentOf other := by
  rw [parentOf, get?_append happend]
  split
  · rfl
  · rw [Option.bind_map]
    rfl

theorem firstOf_append (other : NodeId) :
    grown.firstOf other =
      if other = id then none
      else if other = parent ∧ tree.lastOf parent = none then some id
      else tree.firstOf other := by
  obtain ⟨hparent, -, -⟩ := append?_eq_some happend
  rw [firstOf, get?_append happend]
  split
  · rfl
  · split
    · next hfirst =>
        obtain ⟨rfl, hlast⟩ := hfirst
        obtain ⟨entry, hentry⟩ := exists_get?_of_lt hparent
        simp [hentry, relinked, hlast]
    · next hfirst =>
        rw [Option.bind_map, firstOf]
        congr 1
        funext entry
        exact if_neg hfirst

theorem lastOf_append (other : NodeId) :
    grown.lastOf other =
      if other = id then none else if other = parent then some id else tree.lastOf other := by
  obtain ⟨hparent, -, -⟩ := append?_eq_some happend
  rw [lastOf, get?_append happend]
  split
  · rfl
  · split
    · next heq =>
        subst heq
        obtain ⟨entry, hentry⟩ := exists_get?_of_lt hparent
        simp [hentry, relinked]
    · next hne =>
        rw [Option.bind_map, lastOf]
        congr 1
        funext entry
        exact if_neg hne

theorem nextOf_append_self : grown.nextOf id = none := by
  rw [nextOf, get?_append happend, if_pos rfl]
  rfl

theorem nextOf_append {other : NodeId} (hother : other < tree.size) :
    grown.nextOf other =
      if tree.lastOf parent = some other then some id else tree.nextOf other := by
  obtain ⟨-, rfl, -⟩ := append?_eq_some happend
  obtain ⟨entry, hentry⟩ := exists_get?_of_lt hother
  simp [nextOf, get?_append happend, Nat.ne_of_lt hother, hentry, relinked]

theorem previousOf_append (other : NodeId) :
    grown.previousOf other =
      if other = id then tree.lastOf parent else tree.previousOf other := by
  rw [previousOf, get?_append happend]
  split
  · rfl
  · rw [Option.bind_map]
    rfl

end

end Tree

end CanonicalMarkdown.Document
