import CanonicalMarkdown.Proofs.Document.Traversal
import Mathlib.Data.List.Forall2

namespace CanonicalMarkdown.Document

/-- A node with everything below it, whatever the numbers. -/
inductive Shape where
  | mk (node : Node) (children : List Shape)

namespace Shape

def leaf (node : Node) : Shape := .mk node []

theorem induct {motive : Shape → Prop}
    (mk : ∀ node children, (∀ child ∈ children, motive child) → motive (.mk node children))
    (shape : Shape) : motive shape :=
  shape.rec (motive_2 := fun children => ∀ child ∈ children, motive child) mk
    (by simp) fun _ _ hhead htail => by simpa using ⟨hhead, htail⟩

end Shape

namespace Element

mutual

def shape : Element → Shape
  | .mk _ node children => .mk node (shapeOfAll children)

def shapeOfAll : List Element → List Shape
  | [] => []
  | element :: rest => element.shape :: shapeOfAll rest

end

theorem shapeOfAll_eq (elements : List Element) : shapeOfAll elements = elements.map shape := by
  induction elements with
  | nil => rfl
  | cons element rest ih => rw [shapeOfAll, ih, List.map_cons]

end Element

namespace Tree

/-! A shape is added node by node, each before those below it. -/

mutual

def graft (tree : Tree) (parent : NodeId) : Shape → Tree
  | .mk node children => (tree.appended parent node).graftAll tree.size children

def graftAll (tree : Tree) (parent : NodeId) : List Shape → Tree
  | [] => tree
  | shape :: rest => (tree.graft parent shape).graftAll parent rest

end

theorem graftAll_append (tree : Tree) (parent : NodeId) (left right : List Shape) :
    tree.graftAll parent (left ++ right) = (tree.graftAll parent left).graftAll parent right := by
  induction left generalizing tree with
  | nil => rfl
  | cons shape rest ih => rw [List.cons_append, graftAll, graftAll, ih]

theorem graftAll_concat (tree : Tree) (parent : NodeId) (shapes : List Shape) (shape : Shape) :
    tree.graftAll parent (shapes ++ [shape]) =
      (tree.graftAll parent shapes).graft parent shape := by
  rw [graftAll_append, graftAll, graftAll]

/-- What appends under `parent`, or under nodes that were not there before, leave as it was. -/
structure Extends (tree : Tree) (parent : NodeId) (grown : Tree) : Prop where
  size_le : tree.size ≤ grown.size
  node?_eq : ∀ id < tree.size, grown.node? id = tree.node? id
  lastOf_eq : ∀ id < tree.size, id ≠ parent → grown.lastOf id = tree.lastOf id
  offspring_eq : ∀ id < tree.size, id ≠ parent → grown.offspring id = tree.offspring id

namespace Extends

variable {tree middle grown : Tree} {parent : NodeId}

theorem refl (tree : Tree) (parent : NodeId) : tree.Extends parent tree where
  size_le := Nat.le_refl _
  node?_eq _ _ := rfl
  lastOf_eq _ _ _ := rfl
  offspring_eq _ _ _ := rfl

/-- The second parent is the first one or not in the tree at all. -/
theorem trans {other : NodeId} (hfirst : tree.Extends parent middle)
    (hsecond : middle.Extends other grown) (hother : other = parent ∨ tree.size ≤ other) :
    tree.Extends parent grown := by
  have hne : ∀ id < tree.size, id ≠ parent → id ≠ other := by
    rintro id hid hparent rfl
    rcases hother with hsame | hnew
    · exact hparent hsame
    · exact Nat.not_le_of_lt hid hnew
  have hlt : ∀ id < tree.size, id < middle.size :=
    fun id hid => Nat.lt_of_lt_of_le hid hfirst.size_le
  constructor
  · exact Nat.le_trans hfirst.size_le hsecond.size_le
  · intro id hid
    rw [hsecond.node?_eq id (hlt id hid), hfirst.node?_eq id hid]
  · intro id hid hparent
    rw [hsecond.lastOf_eq id (hlt id hid) (hne id hid hparent), hfirst.lastOf_eq id hid hparent]
  · intro id hid hparent
    rw [hsecond.offspring_eq id (hlt id hid) (hne id hid hparent),
      hfirst.offspring_eq id hid hparent]

end Extends

theorem size_lt_appended {tree : Tree} {parent : NodeId} (hparent : parent < tree.size)
    (node : Node) : tree.size < (tree.appended parent node).size := by
  rw [size_append (append?_of_lt hparent node)]
  exact Nat.lt_succ_self _

theorem extends_appended {tree : Tree} {parent : NodeId} (hparent : parent < tree.size)
    (node : Node) : tree.Extends parent (tree.appended parent node) := by
  have happend := append?_of_lt hparent node
  constructor
  · rw [size_append happend]
    exact Nat.le_succ _
  · intro id hid
    rw [node?_append happend, if_neg (Nat.ne_of_lt hid)]
  · intro id hid hne
    rw [lastOf_append happend, if_neg (Nat.ne_of_lt hid), if_neg hne]
  · intro id hid hne
    rw [offspring_append happend, if_neg hne]

theorem extends_graftAll_of_forall {shapes : List Shape}
    (hshapes : ∀ shape ∈ shapes, ∀ (tree : Tree) (parent : NodeId), parent < tree.size →
      tree.Extends parent (tree.graft parent shape))
    {tree : Tree} {parent : NodeId} (hparent : parent < tree.size) :
    tree.Extends parent (tree.graftAll parent shapes) := by
  induction shapes generalizing tree with
  | nil => exact .refl tree parent
  | cons shape rest ih =>
      have hfirst := hshapes shape (by simp) tree parent hparent
      have hrest := ih (fun shape hshape => hshapes shape (by simp [hshape]))
        (Nat.lt_of_lt_of_le hparent hfirst.size_le)
      exact hfirst.trans hrest (.inl rfl)

theorem extends_graft {tree : Tree} {parent : NodeId} (hparent : parent < tree.size)
    (shape : Shape) : tree.Extends parent (tree.graft parent shape) := by
  induction shape using Shape.induct generalizing tree parent with
  | mk node children ih =>
      have hnew := size_lt_appended hparent node
      have hchildren := extends_graftAll_of_forall (fun child hchild _ _ => ih child hchild) hnew
      exact (extends_appended hparent node).trans hchildren (.inr (Nat.le_refl _))

theorem extends_graftAll {tree : Tree} {parent : NodeId} (hparent : parent < tree.size)
    (shapes : List Shape) : tree.Extends parent (tree.graftAll parent shapes) :=
  extends_graftAll_of_forall (fun shape _ _ _ hparent => extends_graft hparent shape) hparent

/-! The last node that was grafted can be replaced. -/

theorem ext_get? {left right : Tree} (hget : ∀ id, left.get? id = right.get? id) :
    left = right := by
  cases left with
  | mk left =>
      cases right with
      | mk right => exact congrArg Tree.mk (Array.ext_getElem? hget)

theorem set_appended {tree : Tree} {parent id : NodeId} (hparent : parent < tree.size)
    (hid : id < tree.size) (node other : Node) :
    (tree.appended parent node).set id other = (tree.set id other).appended parent node := by
  have happend := append?_of_lt hparent node
  have hset := append?_of_lt (size_set tree id other ▸ hparent) node
  rw [size_set] at hset
  apply ext_get?
  intro child
  rw [get?_set, get?_append happend, get?_append hset, get?_set, lastOf_set]
  by_cases hchild : child = tree.size
  · rw [if_pos hchild, if_pos hchild, Option.map_some, hchild, if_neg (Nat.ne_of_gt hid)]
  · rw [if_neg hchild, if_neg hchild, Option.map_map, Option.map_map]
    rfl

theorem set_size_appended {tree : Tree} {parent : NodeId} (hparent : parent < tree.size)
    (node other : Node) :
    (tree.appended parent node).set tree.size other = tree.appended parent other := by
  apply ext_get?
  intro id
  rw [get?_set, get?_append (append?_of_lt hparent node), get?_append (append?_of_lt hparent other)]
  by_cases hid : id = tree.size
  · simp only [if_pos hid, Option.map_some]
  · simp only [if_neg hid, Option.map_id']

theorem set_graftAll_of_forall {shapes : List Shape} {id : NodeId} {node : Node}
    (hshapes : ∀ shape ∈ shapes, ∀ (tree : Tree) (parent : NodeId), parent < tree.size →
      id < tree.size →
        (tree.graft parent shape).set id node = (tree.set id node).graft parent shape)
    {tree : Tree} {parent : NodeId} (hparent : parent < tree.size) (hid : id < tree.size) :
    (tree.graftAll parent shapes).set id node = (tree.set id node).graftAll parent shapes := by
  induction shapes generalizing tree with
  | nil => rfl
  | cons shape rest ih =>
      have hsize := (extends_graft hparent shape).size_le
      rw [graftAll, ih (fun shape hshape => hshapes shape (by simp [hshape]))
        (Nat.lt_of_lt_of_le hparent hsize) (Nat.lt_of_lt_of_le hid hsize),
        hshapes shape (by simp) tree parent hparent hid, graftAll]

theorem set_graft {tree : Tree} {parent id : NodeId} (hparent : parent < tree.size)
    (hid : id < tree.size) (shape : Shape) (node : Node) :
    (tree.graft parent shape).set id node = (tree.set id node).graft parent shape := by
  induction shape using Shape.induct generalizing tree parent with
  | mk own children ih =>
      have hnew := size_lt_appended hparent own
      rw [graft, graft, size_set, ← set_appended hparent hid]
      exact set_graftAll_of_forall (fun child hchild _ _ hparent hid => ih child hchild hparent hid)
        hnew (Nat.lt_trans hid hnew)

theorem set_size_graft {tree : Tree} {parent : NodeId} (hparent : parent < tree.size)
    (node other : Node) (children : List Shape) :
    (tree.graft parent (.mk node children)).set tree.size other =
      tree.graft parent (.mk other children) := by
  have hnew := size_lt_appended hparent node
  rw [graft, graft, set_graftAll_of_forall (fun shape _ _ _ hparent hid =>
    set_graft hparent hid shape other) hnew hnew, set_size_appended hparent]

theorem lastOf_graft {tree : Tree} {parent : NodeId} (hparent : parent < tree.size)
    (shape : Shape) : (tree.graft parent shape).lastOf parent = some tree.size := by
  cases shape with
  | mk node children =>
      have hnew := size_lt_appended hparent node
      have hne := Nat.ne_of_lt hparent
      rw [graft, (extends_graftAll hnew children).lastOf_eq parent (Nat.lt_trans hparent hnew) hne,
        lastOf_append (append?_of_lt hparent node), if_neg hne, if_pos rfl]

theorem node?_graft {tree : Tree} {parent : NodeId} (hparent : parent < tree.size)
    (node : Node) (children : List Shape) :
    (tree.graft parent (.mk node children)).node? tree.size = some node := by
  have hnew := size_lt_appended hparent node
  rw [graft, (extends_graftAll hnew children).node?_eq tree.size hnew,
    node?_append (append?_of_lt hparent node), if_pos rfl]

/-! What has been grafted is there to be read. -/

inductive Represents (tree : Tree) : NodeId → Shape → Prop
  | mk {id : NodeId} {node : Node} {children : List Shape} :
      tree.node? id = some node →
        List.Forall₂ (Represents tree) (tree.offspring id) children →
          Represents tree id (.mk node children)

theorem forall₂_imp_of_mem {left : List NodeId} {right : List Shape}
    {first second : NodeId → Shape → Prop} (hall : List.Forall₂ first left right)
    (himp : ∀ id ∈ left, ∀ shape ∈ right, first id shape → second id shape) :
    List.Forall₂ second left right := by
  rw [List.forall₂_iff_zip] at hall ⊢
  refine ⟨hall.1, fun hmem => ?_⟩
  obtain ⟨hleft, hright⟩ := List.of_mem_zip hmem
  exact himp _ hleft _ hright (hall.2 hmem)

theorem lt_of_node? {tree : Tree} {id : NodeId} {node : Node} (h : tree.node? id = some node) :
    id < tree.size := by
  obtain ⟨entry, hentry, -⟩ := Option.map_eq_some_iff.mp h
  exact lt_of_get? hentry

theorem Represents.of_extends {tree grown : Tree} {parent id : NodeId} {shape : Shape}
    (hrepresents : tree.Represents id shape) (hlinked : tree.Linked)
    (hextends : tree.Extends parent grown) (hparent : parent < id) :
    grown.Represents id shape := by
  induction shape using Shape.induct generalizing id with
  | mk node children ih =>
      cases hrepresents with
      | mk hnode hchildren =>
          have hid := lt_of_node? hnode
          constructor
          · rw [hextends.node?_eq id hid]
            exact hnode
          · rw [hextends.offspring_eq id hid (Nat.ne_of_gt hparent)]
            apply forall₂_imp_of_mem hchildren
            intro child hchild shape hshape hrepresents
            have hlt := hlinked.parent_lt child id (mem_offspring.mp hchild)
            exact ih shape hshape hrepresents (Nat.lt_trans hparent hlt)

theorem Linked.appended {tree : Tree} {parent : NodeId} (hlinked : tree.Linked)
    (hparent : parent < tree.size) (node : Node) : (tree.appended parent node).Linked :=
  hlinked.append (append?_of_lt hparent node)

/-- Grafting makes a new last child of the given shape. -/
structure Grafted (tree : Tree) (parent : NodeId) (shapes : List Shape) (grown : Tree) : Prop where
  linked : grown.Linked
  children : ∃ ids, grown.offspring parent = tree.offspring parent ++ ids ∧
    (∀ id ∈ ids, parent < id) ∧ List.Forall₂ grown.Represents ids shapes

theorem grafted_all_of_forall {shapes : List Shape}
    (hshapes : ∀ shape ∈ shapes, ∀ (tree : Tree) (parent : NodeId), tree.Linked →
      parent < tree.size → tree.Grafted parent [shape] (tree.graft parent shape))
    {tree : Tree} {parent : NodeId} (hlinked : tree.Linked) (hparent : parent < tree.size) :
    tree.Grafted parent shapes (tree.graftAll parent shapes) := by
  induction shapes generalizing tree with
  | nil => exact ⟨hlinked, [], by simp [graftAll], by simp, .nil⟩
  | cons shape rest ih =>
      have hextends := extends_graft hparent shape
      have hlt := Nat.lt_of_lt_of_le hparent hextends.size_le
      obtain ⟨hmiddle, first, hfirst, hfirstLt, hfirstShapes⟩ :=
        hshapes shape (by simp) tree parent hlinked hparent
      obtain ⟨hgrown, others, hothers, hothersLt, hothersShapes⟩ :=
        ih (fun shape hshape => hshapes shape (by simp [hshape])) hmiddle hlt
      refine ⟨hgrown, first ++ others, ?_, ?_, ?_⟩
      · rw [graftAll, hothers, hfirst, List.append_assoc]
      · intro id hid
        rcases List.mem_append.mp hid with hid | hid
        · exact hfirstLt id hid
        · exact hothersLt id hid
      · have hkept := forall₂_imp_of_mem hfirstShapes fun id hid shape _ hrepresents =>
          hrepresents.of_extends hmiddle (extends_graftAll hlt rest) (hfirstLt id hid)
        exact List.rel_append hkept hothersShapes

theorem grafted {tree : Tree} {parent : NodeId} (hlinked : tree.Linked)
    (hparent : parent < tree.size) (shape : Shape) :
    tree.Grafted parent [shape] (tree.graft parent shape) := by
  induction shape using Shape.induct generalizing tree parent with
  | mk node children ih =>
      have happend := append?_of_lt hparent node
      have hnew := size_lt_appended hparent node
      have hextends := extends_graftAll hnew children
      obtain ⟨hgrown, ids, hids, -, hshapes⟩ := grafted_all_of_forall
        (fun child hchild _ _ => ih child hchild) (hlinked.appended hparent node) hnew
      have hnone : (tree.appended parent node).offspring tree.size = [] := by
        rw [offspring_append happend, if_neg (Nat.ne_of_gt hparent)]
        exact hlinked.offspring_eq_nil_of_size_le (Nat.le_refl _)
      refine ⟨hgrown, [tree.size], ?_, ?_, ?_⟩
      · rw [graft, hextends.offspring_eq parent (Nat.lt_trans hparent hnew) (Nat.ne_of_lt hparent),
          offspring_append happend, if_pos rfl]
      · simpa using hparent
      · refine .cons (.mk ?_ ?_) .nil
        · rw [graft, hextends.node?_eq tree.size hnew, node?_append happend, if_pos rfl]
        · rw [graft, hids, hnone]
          exact hshapes

theorem grafted_all {tree : Tree} {parent : NodeId} (hlinked : tree.Linked)
    (hparent : parent < tree.size) (shapes : List Shape) :
    tree.Grafted parent shapes (tree.graftAll parent shapes) :=
  grafted_all_of_forall (fun shape _ _ _ hlinked hparent => grafted hlinked hparent shape) hlinked
    hparent

theorem filterMap_eq_of_forall₂ {read : NodeId → Option Shape} {ids : List NodeId}
    {shapes : List Shape} (hread : List.Forall₂ (fun id shape => read id = some shape) ids shapes) :
    ids.filterMap read = shapes := by
  induction hread with
  | nil => rfl
  | cons hhead _ ih => rw [List.filterMap_cons_some hhead, ih]

theorem Represents.shape_elementWithin {tree : Tree} {depth : Nat} {id : NodeId} {node : Node}
    {children : List Shape} (hrepresents : tree.Represents id (.mk node children))
    (hlinked : tree.Linked) (hdepth : tree.size ≤ depth + id) :
    (tree.elementWithin depth id node).shape = .mk node children := by
  induction depth generalizing id node children with
  | zero =>
      cases hrepresents with
      | mk hnode _ => exact absurd (lt_of_node? hnode) (by simpa using hdepth)
  | succ depth ih =>
      cases hrepresents with
      | mk hnode hchildren =>
          rw [elementWithin, Element.shape, Element.shapeOfAll_eq, List.map_filterMap,
            hlinked.children_eq]
          congr 1
          apply filterMap_eq_of_forall₂
          apply forall₂_imp_of_mem hchildren
          rintro child hchild ⟨node, children⟩ - hrepresents
          obtain ⟨hdepth, -⟩ := hlinked.child_within hdepth hchild
          have hshape := ih hrepresents hdepth
          cases hrepresents with
          | mk hnode _ => rw [hnode, Option.map_some, Option.map_some, hshape]

/-- A whole document of the given shapes. -/
def ofShapes (shapes : List Shape) : Tree := Tree.new.graftAll rootId shapes

theorem shape_root_ofShapes (shapes : List Shape) :
    (ofShapes shapes).root.shape = .mk .document shapes := by
  have hroot : rootId < Tree.new.size := by decide
  have hextends := extends_graftAll hroot shapes
  obtain ⟨hlinked, ids, hids, -, hshapes⟩ := grafted_all linked_new hroot shapes
  have hnode : (ofShapes shapes).node? rootId = some .document := hextends.node?_eq rootId hroot
  rw [offspring_new, List.nil_append] at hids
  rw [root, hnode]
  have hrepresents : (ofShapes shapes).Represents rootId (.mk .document shapes) :=
    .mk hnode (hids ▸ hshapes)
  exact hrepresents.shape_elementWithin hlinked (Nat.le_add_right ..)

end Tree

end CanonicalMarkdown.Document
