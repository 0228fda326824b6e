import CanonicalMarkdown.Proofs.Document.Capture

namespace CanonicalMarkdown.Document

theorem Part.addTo_lineBreak_concat (front below : List Shape) (node : Node) (hard : Bool)
    (offset : Nat) :
    Part.addTo (front ++ [.mk node below]) (.lineBreak hard offset) =
      match Builder.broken? hard node with
      | some broken => front ++ [.mk broken below]
      | none => front ++ [.mk node below] ++ [.leaf (.lineBreak offset hard)] := by
  simp only [Part.addTo, List.getLast?_concat, List.dropLast_concat]
  cases node with
  | text segment raw soft hardBefore => cases raw <;> rfl
  | _ => rfl

namespace Builder

/-! A builder that adds to a node without content, which has got these shapes so far. -/

structure Site (builder : Builder) (base : Tree) (parent : NodeId) (shapes : List Shape) :
    Prop where
  tree_eq : builder.tree = base.graftAll parent shapes
  parent_lt : parent < base.size
  lastOf_eq : base.lastOf parent = none
  parent_eq : builder.parent = parent
  target_eq : builder.target = .tree
  lines_eq : builder.lines = []
  alt_eq : builder.alt = ""
  frontMatter_eq : builder.frontMatter = ""

def replaced (builder : Builder) (tree : Tree) (metadata : Option Yaml.Value) : Builder :=
  { builder with tree, metadata }

/-- The builder inside a new last child. -/
def inside (builder : Builder) (node : Node) (frame : Frame) : Builder :=
  { builder with tree := builder.tree.appended builder.parent node }.push frame

theorem closeTextBlock_replaced (builder : Builder) (tree : Tree)
    (metadata : Option Yaml.Value) :
    (builder.replaced tree metadata).closeTextBlock =
      builder.closeTextBlock.replaced tree metadata := by
  cases builder with
  | mk source _ frames =>
      cases frames with
      | nil => rfl
      | cons frame _ => cases frame <;> rfl

theorem closeTextBlock_of_isInItem {builder : Builder} (hitem : builder.isInItem = true) :
    builder.closeTextBlock = builder := by
  unfold isInItem at hitem
  unfold closeTextBlock
  cases hframes : builder.frames with
  | nil => rfl
  | cons frame rest =>
      cases frame with
      | textBlock => simp [hframes] at hitem
      | _ => rfl

namespace Site

variable {builder : Builder} {base : Tree} {parent : NodeId} {shapes : List Shape}
  (hsite : Site builder base parent shapes)
include hsite

theorem parent_lt_tree : parent < builder.tree.size := by
  rw [hsite.tree_eq]
  exact Nat.lt_of_lt_of_le hsite.parent_lt (Tree.extends_graftAll hsite.parent_lt shapes).size_le

theorem replaced (shapes : List Shape) (metadata : Option Yaml.Value) :
    Site (builder.replaced (base.graftAll parent shapes) metadata) base parent shapes :=
  ⟨rfl, hsite.parent_lt, hsite.lastOf_eq, hsite.parent_eq, hsite.target_eq, hsite.lines_eq,
    hsite.alt_eq, hsite.frontMatter_eq⟩

theorem replaced_self :
    builder.replaced (base.graftAll parent shapes) builder.metadata = builder := by
  rw [← hsite.tree_eq]
  rfl

theorem isInItem_replaced (others : List Shape) (metadata : Option Yaml.Value) :
    (builder.replaced (base.graftAll parent others) metadata).isInItem = builder.isInItem := by
  have hnode : ∀ shapes, (base.graftAll parent shapes).node? parent = base.node? parent :=
    fun shapes => (Tree.extends_graftAll hsite.parent_lt shapes).node?_eq parent hsite.parent_lt
  have hparent := hsite.parent_eq
  cases hframes : builder.frames with
  | nil => simp [isInItem, Builder.replaced, hframes]
  | cons frame rest =>
      cases frame with
      | node id =>
          have hid : id = parent := by
            rw [Builder.parent, hframes] at hparent
            exact hparent
          simp [isInItem, Builder.replaced, hframes, hid, hsite.tree_eq, hnode]
      | _ => simp [isInItem, Builder.replaced, hframes]

/-! Appending. -/

theorem append_eq (node : Node) :
    builder.append node =
      .ok (builder.tree.size, { builder with tree := builder.tree.appended parent node }) := by
  rw [append, appendTo, hsite.parent_eq, Tree.append?_of_lt hsite.parent_lt_tree]

theorem appended_eq (node : Node) :
    builder.tree.appended parent node = base.graftAll parent (shapes ++ [.leaf node]) := by
  rw [Tree.graftAll_concat, ← hsite.tree_eq]
  rfl

theorem addBlock_eq (node : Node) :
    builder.addBlock node =
      .ok (builder.replaced (base.graftAll parent (shapes ++ [.leaf node])) builder.metadata) := by
  rw [addBlock, hsite.append_eq, ok_bind, hsite.appended_eq]
  rfl

theorem openBlock_eq (node : Node) :
    builder.openBlock node = .ok (builder.inside node (.node builder.tree.size)) := by
  rw [openBlock, hsite.append_eq, ok_bind, inside, hsite.parent_eq]
  rfl

section

variable (hitem : builder.isInItem = false)
include hitem

theorem inlineParent_eq : builder.inlineParent = .ok (parent, builder) := by
  rw [inlineParent, hitem, hsite.parent_eq]
  rfl

theorem appendInline_eq (node : Node) :
    builder.appendInline node =
      .ok (builder.tree.size, { builder with tree := builder.tree.appended parent node }) := by
  rw [appendInline, hsite.inlineParent_eq hitem, ok_bind, ← hsite.append_eq, append,
    hsite.parent_eq]

theorem addInline_eq (node : Node) :
    builder.addInline node =
      .ok (builder.replaced (base.graftAll parent (shapes ++ [.leaf node])) builder.metadata) := by
  rw [addInline, hsite.appendInline_eq hitem, ok_bind, hsite.appended_eq]
  rfl

theorem openInline_eq (node : Node) :
    builder.openInline node = .ok (builder.inside node (.node builder.tree.size)) := by
  rw [openInline, hsite.appendInline_eq hitem, ok_bind, inside, hsite.parent_eq]
  rfl

theorem codeSpan_eq (code : String) :
    builder.codeSpan code = .ok (builder.replaced
      (base.graftAll parent (shapes ++ [.mk .codeSpan [.leaf (.string code)]]))
      builder.metadata) := by
  have hspan := Tree.append?_of_lt
    (Tree.size_lt_appended hsite.parent_lt_tree .codeSpan) (.string code)
  have htree : (builder.tree.appended parent .codeSpan).appended builder.tree.size (.string code) =
      base.graftAll parent (shapes ++ [.mk .codeSpan [.leaf (.string code)]]) := by
    rw [Tree.graftAll_concat, ← hsite.tree_eq]
    rfl
  simp only [codeSpan, hsite.target_eq, hsite.appendInline_eq hitem, ok_bind, appendTo, hspan,
    htree]
  rfl

theorem lineBreak_eq (hard : Bool) (range : Segment) :
    builder.lineBreak hard range = .ok (builder.replaced
      (base.graftAll parent (Part.addTo shapes (.lineBreak hard range.start)))
      builder.metadata) := by
  have halone := hsite.appended_eq (.lineBreak range.start hard)
  have happend := Tree.append?_of_lt hsite.parent_lt_tree (.lineBreak range.start hard)
  simp only [lineBreak, hsite.target_eq, hsite.inlineParent_eq hitem, ok_bind]
  rcases List.eq_nil_or_concat shapes with hshapes | ⟨front, shape, hshapes⟩
  · have hlast : builder.tree.lastOf parent = none := by
      rw [hsite.tree_eq, hshapes]
      exact hsite.lastOf_eq
    simp only [hlast, appendTo, happend, halone, ok_bind]
    rw [hshapes]
    rfl
  · cases shape with
    | mk node below =>
        rw [List.concat_eq_append] at hshapes
        have hfront := Nat.lt_of_lt_of_le hsite.parent_lt
          (Tree.extends_graftAll hsite.parent_lt front).size_le
        have htree : builder.tree = (base.graftAll parent front).graft parent (.mk node below) := by
          rw [hsite.tree_eq, hshapes, Tree.graftAll_concat]
        have hlast : builder.tree.lastOf parent = some (base.graftAll parent front).size := by
          rw [htree]
          exact Tree.lastOf_graft hfront _
        have hnode : builder.tree.node? (base.graftAll parent front).size = some node := by
          rw [htree]
          exact Tree.node?_graft hfront node below
        -- The last child is the root of the last shape, whatever has been added below it.
        simp only [hlast, Option.bind_some, hnode]
        rw [hshapes, Part.addTo_lineBreak_concat]
        cases broken? hard node with
        | some broken =>
            rw [Tree.graftAll_concat, ← Tree.set_size_graft hfront node broken, ← htree]
            rfl
        | none =>
            simp only [appendTo, happend, halone, ok_bind, hshapes]
            rfl

end

/-! A new child is a node without content. -/

theorem graft_eq (node : Node) (below : List Shape) :
    (builder.tree.appended parent node).graftAll builder.tree.size below =
      base.graftAll parent (shapes ++ [.mk node below]) := by
  rw [Tree.graftAll_concat, ← hsite.tree_eq, Tree.graft]

theorem isInItem_inside (node : Node) :
    (builder.inside node (.node builder.tree.size)).isInItem = (node.kind == .listItem) := by
  have happend := Tree.append?_of_lt hsite.parent_lt_tree node
  simp [isInItem, Builder.inside, push, hsite.parent_eq, Tree.node?_append happend]

theorem inlineParent_inside (hitem : builder.isInItem = true) :
    builder.inlineParent = .ok (builder.tree.size,
      builder.inside .textBlock (.textBlock builder.tree.size)) := by
  rw [inlineParent, if_pos hitem, hsite.append_eq, ok_bind, Builder.inside, hsite.parent_eq]
  rfl

theorem inside (node : Node) (frame : Frame) (hframe : frame.id? = some builder.tree.size) :
    Site (builder.inside node frame) (builder.tree.appended parent node) builder.tree.size [] := by
  have hnew := Tree.size_lt_appended hsite.parent_lt_tree node
  have htarget : frame.target = .tree ∧ frame.isTransparent = false := by
    cases frame <;> simp_all [Frame.id?, Frame.target, Frame.isTransparent]
  constructor
  · rw [Builder.inside, hsite.parent_eq]
    rfl
  · exact hnew
  · rw [Tree.lastOf_append (Tree.append?_of_lt hsite.parent_lt_tree node), if_pos rfl]
  · simp [Builder.inside, push, Builder.parent, hframe]
  · simp [Builder.inside, push, target, htarget]
  · exact hsite.lines_eq
  · exact hsite.alt_eq
  · exact hsite.frontMatter_eq

end Site

end Builder

end CanonicalMarkdown.Document
