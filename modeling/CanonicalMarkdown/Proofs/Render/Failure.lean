import CanonicalMarkdown.Proofs.Render.BuiltIn
import CanonicalMarkdown.Proofs.Render.Walk

namespace CanonicalMarkdown

open Document Output

/-! Nodes in the order in which a walk comes to them. -/

namespace Document

def Node.emphasisLevel? : Node → Option Nat
  | .emphasis level => some level
  | _ => none

theorem Node.isEmphasis_iff {node : Node} {level : Nat} :
    node.isEmphasis level = true ↔ node = .emphasis level := by
  cases node <;> simp [Node.isEmphasis]

theorem Node.eq_emphasis {node : Node} {level : Nat} (hlevel : node.emphasisLevel? = some level) :
    node = .emphasis level := by
  cases node with
  | emphasis own =>
      cases hlevel
      rfl
  | _ => cases hlevel

theorem Node.exists_eq_emphasis {node : Node} (hkind : node.kind = .emphasis) :
    ∃ level, node = .emphasis level := by
  cases node with
  | emphasis level => exact ⟨level, rfl⟩
  | _ => cases hkind

theorem Node.emphasisLevel?_eq_none {node : Node} (hkind : node.kind ≠ .emphasis) :
    node.emphasisLevel? = none := by
  cases node with
  | emphasis level => exact absurd rfl hkind
  | _ => rfl

namespace Tree

def emphasisLevel? (tree : Tree) (id : NodeId) : Option Nat :=
  (tree.node? id).bind Node.emphasisLevel?

/-- Whether a walk comes to the node: nothing above it stands for itself. -/
def isVisited (tree : Tree) (id : NodeId) : Bool :=
  (tree.place id).ancestors.all fun above => !above.kind.isOpaque

theorem Grown.isVisited_root {tree : Tree} (hgrown : tree.Grown) :
    tree.isVisited rootId = true := by
  rw [isVisited, hgrown.place_root]
  rfl

def preorder (tree : Tree) (id : NodeId) : List NodeId :=
  ((tree.element? id).map Element.ids).getD []

namespace Linked

variable {tree : Tree} (hlinked : tree.Linked)
include hlinked

theorem isVisited_child_iff {parent child : NodeId} {node : Node}
    (hparent : tree.parentOf child = some parent) (hnode : tree.node? parent = some node) :
    tree.isVisited child = true ↔
      node.kind.isOpaque = false ∧ tree.isVisited parent = true := by
  rw [isVisited, hlinked.ancestors_place_child hparent hnode, List.all_cons, Bool.and_eq_true,
    Bool.not_eq_true']
  rfl

/-- What holds of a node that is visited, once it holds of the children it lays out, holds of every
such node. -/
theorem of_visited_children {motive : NodeId → Prop}
    (step : ∀ id node, tree.node? id = some node → tree.isVisited id = true →
      (node.kind.isOpaque = false → ∀ child ∈ tree.children id, motive child) → motive id)
    {id : NodeId} (hid : id < tree.size) (hvisited : tree.isVisited id = true) : motive id := by
  revert hvisited
  refine hlinked.of_children (motive := fun id => tree.isVisited id = true → motive id) ?_ hid
  intro id node hnode ih hvisited
  apply step id node hnode hvisited
  intro hisOpaque child hchild
  have hparent := hlinked.mem_children.mp hchild
  exact ih child hchild ((hlinked.isVisited_child_iff hparent hnode).mpr ⟨hisOpaque, hvisited⟩)

theorem preorder_root : tree.preorder rootId = tree.root.ids := by
  rw [preorder, hlinked.element?_root]
  rfl

theorem preorder_eq {id : NodeId} {node : Node} (hnode : tree.node? id = some node) :
    tree.preorder id = id :: (tree.children id).flatMap tree.preorder := by
  rw [preorder, hlinked.element?_eq hnode, Option.map_some, Option.getD_some, Element.ids,
    Element.idsOfAll_eq, elements, List.filterMap_eq_flatMap_toList, List.flatMap_assoc]
  congr 1
  apply List.flatMap_congr
  intro child _
  rw [preorder]
  cases tree.element? child with
  | none => rfl
  | some element => simp

theorem isVisited_of_mem_preorder {id other : NodeId} (hid : id < tree.size)
    (hother : other ∈ tree.preorder id) (hvisited : tree.isVisited other = true) :
    tree.isVisited id = true := by
  revert hother
  refine hlinked.of_children (motive := fun id => other ∈ tree.preorder id →
    tree.isVisited id = true) ?_ hid
  intro id node hnode ih hother
  rw [hlinked.preorder_eq hnode, List.mem_cons, List.mem_flatMap] at hother
  rcases hother with rfl | ⟨child, hchild, hother⟩
  · exact hvisited
  · have hparent := hlinked.mem_children.mp hchild
    exact ((hlinked.isVisited_child_iff hparent hnode).mp (ih child hchild hother)).2

end Linked

end Tree

end Document

namespace Render

/-! The failure of a layout is that of the first of its parts that fails. -/

namespace Layout

def failure (layout : Layout) : Option RenderError := layout.outcome.failure

@[simp] theorem failure_done : done.failure = none := rfl

@[simp] theorem failure_fail (error : RenderError) : (fail error).failure = some error := rfl

@[simp] theorem failure_visit (node : NodeId) (phase : Phase) (rest : Layout) :
    (visit node phase rest).failure = rest.failure := rfl

@[simp] theorem failure_append (first second : Layout) :
    (first ++ second).failure = first.failure.or second.failure := by
  rw [failure, outcome_append, failure, failure]
  cases first.outcome with
  | mk result output => cases result <;> rfl

@[simp] theorem failure_through (layer : Layer) (body : Layout) :
    (through layer body).failure = body.failure := by
  rw [failure, outcome_through]
  rfl

@[simp] theorem failure_write (chunk : Chunk) (rest : Layout) :
    (write chunk rest).failure = rest.failure := by
  have hsplit : write chunk rest = write chunk done ++ rest := rfl
  rw [hsplit, failure_append]
  rfl

@[simp] theorem failure_within (layer : Layer) (body rest : Layout) :
    (within layer body rest).failure = body.failure.or rest.failure := by
  have hsplit : within layer body rest = through layer body ++ rest := rfl
  rw [hsplit, failure_append, failure_through]

theorem failure_concat (parts : List Layout) :
    (concat parts).failure = parts.findSome? failure := by
  induction parts with
  | nil => rfl
  | cons part rest ih =>
      rw [concat, failure_append, ih, List.findSome?_cons]
      cases part.failure <;> rfl

theorem IsPlain.failure_eq_none {layout : Layout} (hplain : layout.IsPlain) :
    layout.failure = none := by
  induction layout with
  | done => rfl
  | fail error => exact hplain.elim
  | visit node phase rest _ => exact hplain.elim
  | write chunk rest ih => rw [failure_write, ih hplain]
  | within layer body rest ihBody ihRest =>
      rw [failure_within, ihBody hplain.1, ihRest hplain.2, Option.none_or]

theorem Encloses.failure_eq {wrap : Layout → Layout} (hwrap : Encloses wrap) (body : Layout) :
    (wrap body).failure = body.failure := by
  induction hwrap with
  | itself => rfl
  | after before hbefore _ ih => rw [failure_append, hbefore.failure_eq_none, ih, Option.none_or]
  | newline _ ih => rw [failure_append, ih, isPlain_newline.failure_eq_none, Option.or_none]
  | through layer _ ih => rw [failure_through, ih]

end Layout

namespace Renderer

theorem Enclosed.failure_eq {id : NodeId} {kind : Kind} {parts : List Layout} {layout : Layout}
    (henclosed : Enclosed id kind parts layout) :
    layout.failure = if kind.isOpaque then none else parts.findSome? Layout.failure := by
  obtain ⟨wrap, closing, hwrap, hclosing, rfl⟩ := henclosed
  rw [Layout.failure_visit, Layout.failure_append, hwrap.failure_eq, Layout.failure_visit,
    hclosing.failure_eq_none, Option.or_none]
  split
  · rfl
  · exact Layout.failure_concat parts

end Renderer

end Render

end CanonicalMarkdown
