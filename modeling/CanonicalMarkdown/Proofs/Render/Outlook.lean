import CanonicalMarkdown.Proofs.Document.Shape
import CanonicalMarkdown.Proofs.Render.BuiltIn
import CanonicalMarkdown.Proofs.Render.Walk

namespace CanonicalMarkdown

open Document Output

/-! What the nodes around a node show of themselves, taken from the nearest one outwards. -/

namespace Document.Place

variable (node : Node) (above : List Node) (previous : List Node) (next : Option Node)

theorem isInList_cons :
    isInList ⟨node :: above, previous, next⟩ =
      (node.kind != .blockquote &&
        (node.kind == .listItem || isInList ⟨above, previous, next⟩)) := by
  cases hquote : node.kind != .blockquote with
  | false => simp [isInList, listDepth, hquote]
  | true =>
      cases hitem : node.kind == .listItem <;> simp [isInList, listDepth, hquote, hitem]

theorem inlineAncestors_cons :
    inlineAncestors ⟨node :: above, previous, next⟩ =
      if node.isInline then node :: inlineAncestors ⟨above, previous, next⟩ else [] :=
  List.takeWhile_cons

theorem isInTextBlock_cons :
    isInTextBlock ⟨node :: above, previous, next⟩ =
      if node.isInline then isInTextBlock ⟨above, previous, next⟩
      else node.kind == .textBlock := by
  cases hinline : node.isInline <;> simp [isInTextBlock, block?, hinline]

end Document.Place

/-! Elements of one shape have the same nodes. -/

namespace Document.Element

theorem shape_eq (element : Element) :
    element.shape = .mk element.node (shapeOfAll element.children) := by
  cases element with
  | mk id node children => rfl

theorem shape_eq_mk_iff {element : Element} {node : Node} {shapes : List Shape} :
    element.shape = .mk node shapes ↔
      element.node = node ∧ shapeOfAll element.children = shapes := by
  rw [shape_eq, Shape.mk.injEq]

theorem node_eq_of_shape {element twin : Element} (hshape : element.shape = twin.shape) :
    element.node = twin.node :=
  (shape_eq_mk_iff.mp (hshape.trans twin.shape_eq)).1

theorem nodes_eq_of_shapes {elements twins : List Element}
    (hshapes : shapeOfAll elements = shapeOfAll twins) :
    elements.map node = twins.map node := by
  induction elements generalizing twins with
  | nil =>
      cases twins with
      | nil => rfl
      | cons twin others => cases hshapes
  | cons element rest ih =>
      cases twins with
      | nil => cases hshapes
      | cons twin others =>
          obtain ⟨hfirst, hrest⟩ := List.cons.inj hshapes
          rw [List.map_cons, List.map_cons, node_eq_of_shape hfirst, ih hrest]

end Document.Element

namespace Render

/-- Two lists of ancestors that look the same from below to every node but an image. -/
structure Alike (left right : List Node) : Prop where
  isInList : ∀ previous next,
    Place.isInList ⟨left, previous, next⟩ = Place.isInList ⟨right, previous, next⟩
  isEmphasized : ∀ previous next level,
    (Place.inlineAncestors ⟨left, previous, next⟩).any (·.isEmphasis level) =
      (Place.inlineAncestors ⟨right, previous, next⟩).any (·.isEmphasis level)
  isInTextBlock : ∀ previous next,
    Place.isInTextBlock ⟨left, previous, next⟩ = Place.isInTextBlock ⟨right, previous, next⟩
  parent_isItem : left.head?.any (·.kind == .listItem) = right.head?.any (·.kind == .listItem)
  parent_isOrdered : left.head?.any Block.isOrderedList = right.head?.any Block.isOrderedList

/-- Either both parents are documents or none is, which an image can tell. -/
def AlikeToImages (left right : List Node) : Prop :=
  left.head?.all (·.kind == .document) = right.head?.all (·.kind == .document)

namespace Alike

variable {left right : List Node}

theorem refl (above : List Node) : Alike above above where
  isInList _ _ := rfl
  isEmphasized _ _ _ := rfl
  isInTextBlock _ _ := rfl
  parent_isItem := rfl
  parent_isOrdered := rfl

theorem cons (halike : Alike left right) (node : Node) : Alike (node :: left) (node :: right) where
  isInList previous next := by
    rw [Place.isInList_cons, Place.isInList_cons, halike.isInList]
  isEmphasized previous next level := by
    rw [Place.inlineAncestors_cons, Place.inlineAncestors_cons]
    split
    · rw [List.any_cons, List.any_cons, halike.isEmphasized]
    · rfl
  isInTextBlock previous next := by
    rw [Place.isInTextBlock_cons, Place.isInTextBlock_cons, halike.isInTextBlock]
  parent_isItem := rfl
  parent_isOrdered := rfl

/-- A quotation hides what is around it, and looks like a document from below. -/
theorem quote (above : List Node) : Alike (.blockquote :: above) [.document] where
  isInList _ _ := by
    rw [Place.isInList_cons]
    rfl
  isEmphasized _ _ _ := rfl
  isInTextBlock _ _ := rfl
  parent_isItem := rfl
  parent_isOrdered := rfl

/-- From below a list item it does not matter what is around the item. -/
theorem item (left right : List Node) : Alike (.listItem :: left) (.listItem :: right) where
  isInList _ _ := by
    rw [Place.isInList_cons, Place.isInList_cons]
    rfl
  isEmphasized _ _ _ := rfl
  isInTextBlock _ _ := rfl
  parent_isItem := rfl
  parent_isOrdered := rfl

end Alike

namespace Layout

theorem outcome_concat {parts twins : List Layout}
    (hparts : parts.map outcome = twins.map outcome) :
    (concat parts).outcome = (concat twins).outcome := by
  induction parts generalizing twins with
  | nil =>
      rw [List.map_nil, eq_comm, List.map_eq_nil_iff] at hparts
      rw [hparts]
  | cons part rest ih =>
      obtain ⟨twin, others, rfl, hfirst, hrest⟩ := List.map_eq_cons_iff.mp hparts.symm
      rw [concat, concat, outcome_append, outcome_append, hfirst, ih hrest.symm]

end Layout

namespace Renderer

variable (context : Context) {left right : List Node} (halike : Alike left right)
  (previous : List Node) (next : Option Node)

/-- Two renderings that write the same and treat the children alike. -/
def Same (first second : Rendering) : Prop :=
  first.layout.outcome = second.layout.outcome ∧ first.status = second.status

theorem Same.ite {condition : Prop} [Decidable condition] {first second third fourth : Rendering}
    (hfirst : Same first third) (hsecond : Same second fourth) :
    Same (if condition then first else second) (if condition then third else fourth) := by
  split
  · exact hfirst
  · exact hsecond

include halike

theorem render_same (node : Node) (id twin : NodeId) {children others : List Element}
    (hchildren : children.map Element.node = others.map Element.node)
    {parts twins : List Layout} (hparts : parts.map Layout.outcome = twins.map Layout.outcome)
    (himage : node.kind = .image → AlikeToImages left right)
    (phase : Phase) :
    Same ((standard context).render ⟨left, previous, next⟩ (.mk id node children) phase parts)
      ((standard context).render ⟨right, previous, next⟩ (.mk twin node others) phase twins) := by
  have hconcat := Layout.outcome_concat hparts
  cases node with
  | document | heading | thematicBreak | textBlock | fencedCodeBlock | htmlBlock | strikethrough
  | autoLink | link | rawHtml | string =>
      cases phase <;> exact ⟨rfl, rfl⟩
  | paragraph =>
      change Same (Block.paragraph _) (Block.paragraph _)
      simp only [Block.paragraph, halike.isInList]
      cases phase with
      | leave => exact ⟨rfl, rfl⟩
      | enter =>
          refine Same.ite ⟨?_, rfl⟩ ⟨hconcat, rfl⟩
          simp [Rendering.skipChildren, Visit.children, hconcat]
  | blockquote =>
      change Same (Block.blockquote _) (Block.blockquote _)
      simp only [Block.blockquote, halike.isInList]
      cases phase with
      | leave => exact ⟨rfl, rfl⟩
      | enter =>
          refine ⟨?_, rfl⟩
          simp [Rendering.skipChildren, Block.quoted, Visit.children, Place.hasPrevious, hconcat]
  | list ordered start =>
      change Same (Block.list _) (Block.list _)
      simp only [Block.list, Place.parent?, halike.parent_isItem]
      cases phase <;> exact ⟨rfl, rfl⟩
  | listItem =>
      have hlast : children.getLast?.map Element.node = others.getLast?.map Element.node := by
        rw [← List.getLast?_map, hchildren, List.getLast?_map]
      change Same (Block.listItem _) (Block.listItem _)
      simp only [Block.listItem, Block.itemMarker, Place.parent?, halike.parent_isOrdered]
      cases phase with
      | leave =>
          have hquote : children.getLast?.any (·.kind == .blockquote) =
              others.getLast?.any (·.kind == .blockquote) := by
            have hkinds := congrArg (Option.any (·.kind == .blockquote)) hlast
            rwa [Option.any_map, Option.any_map] at hkinds
          simp only [Element.children, hquote]
          exact ⟨rfl, rfl⟩
      | enter =>
          refine ⟨?_, rfl⟩
          simp only [Rendering.skipChildren, Block.hung, Visit.children, Layout.outcome_through,
            Layout.outcome_append, hconcat]
          rfl
  | codeBlock lines =>
      change Same (Block.codeBlock _) (Block.codeBlock _)
      simp only [Block.codeBlock, halike.isInList]
      cases phase <;> exact Same.ite ⟨rfl, rfl⟩ ⟨rfl, rfl⟩
  | codeSpan =>
      have hpieces : children.map (fun child => Inline.literal context.source child.node) =
          others.map (fun child => Inline.literal context.source child.node) := by
        have hnodes := congrArg (List.map (Inline.literal context.source)) hchildren
        rwa [List.map_map, List.map_map] at hnodes
      change Same (Inline.codeSpan _) (Inline.codeSpan _)
      simp only [Inline.codeSpan, Element.children, standard]
      rw [hpieces]
      cases phase <;> exact ⟨rfl, rfl⟩
  | emphasis level =>
      change Same (Inline.emphasis _) (Inline.emphasis _)
      simp only [Inline.emphasis, Visit.node, Element.node, Inline.isMerged,
        halike.isEmphasized]
      exact ⟨rfl, rfl⟩
  | image destination label alt =>
      change Same (Inline.image _) (Inline.image _)
      have hparent : left.head?.all (·.kind == .document) = right.head?.all (·.kind == .document) :=
        himage rfl
      simp only [Inline.image, Visit.node, Element.node, Place.parent?, hparent]
      cases phase <;> exact ⟨rfl, rfl⟩
  | text segment raw soft hard =>
      change Same (Inline.text _) (Inline.text _)
      simp only [Inline.text, Visit.node, Element.node, Inline.lineBreak, halike.isInTextBlock]
      cases phase <;> exact ⟨rfl, rfl⟩

theorem outcome_around (node : Node) (id twin : NodeId) {children others : List Element}
    (hchildren : children.map Element.node = others.map Element.node)
    {parts twins : List Layout} (hparts : parts.map Layout.outcome = twins.map Layout.outcome)
    (himage : node.kind = .image → AlikeToImages left right) :
    ((standard context).around ⟨left, previous, next⟩ (.mk id node children) parts).outcome =
      ((standard context).around ⟨right, previous, next⟩ (.mk twin node others) twins).outcome := by
  have hsame := render_same context halike previous next node id twin hchildren hparts himage
  obtain ⟨henter, hstatus⟩ := hsame .enter
  obtain ⟨hleave, -⟩ := hsame .leave
  simp only [around, Layout.outcome_visit, Layout.outcome_append, henter, hstatus, hleave]
  congr 2
  unfold Layout.when
  split
  · exact Layout.outcome_concat hparts
  · rfl

end Renderer

namespace Renderer

variable (context : Context)

mutual

/-- What an element writes depends on its shape and on what it can see from where it stands. -/
theorem outcome_walk {left right : List Node} (halike : Alike left right) (previous : List Node)
    (next : Option Node) : (element : Element) → {twin : Element} → element.shape = twin.shape →
    (element.kind = .image → AlikeToImages left right) →
    ((standard context).walk ⟨left, previous, next⟩ element).outcome =
      ((standard context).walk ⟨right, previous, next⟩ twin).outcome
  | .mk id node children, .mk twin own others, hshape, himage => by
      obtain ⟨rfl, hchildren⟩ := Shape.mk.inj hshape
      -- One level down both sides have the same parent, so that images look the same as well.
      have hparts := outcome_walkEach (halike.cons node) [] children hchildren fun _ _ _ => rfl
      exact outcome_around context halike previous next node id twin
        (Element.nodes_eq_of_shapes hchildren) hparts himage

theorem outcome_walkEach {left right : List Node} (halike : Alike left right)
    (previous : List Node) : (elements : List Element) → {twins : List Element} →
    Element.shapeOfAll elements = Element.shapeOfAll twins →
    (∀ element ∈ elements, element.kind = .image → AlikeToImages left right) →
    ((standard context).walkEach left previous elements).map Layout.outcome =
      ((standard context).walkEach right previous twins).map Layout.outcome
  | [], [], _, _ => rfl
  | element :: rest, twin :: others, hshapes, himage => by
      obtain ⟨hshape, hrest⟩ := List.cons.inj hshapes
      have hnext : rest.head?.map Element.node = others.head?.map Element.node := by
        rw [← List.head?_map, Element.nodes_eq_of_shapes hrest, List.head?_map]
      have hfirst := outcome_walk halike previous (rest.head?.map Element.node) element hshape
        (himage element (by simp))
      have hothers := outcome_walkEach halike (element.node :: previous) rest hrest
        fun other hother => himage other (by simp [hother])
      rw [walkEach, walkEach, List.map_cons, List.map_cons, hfirst, hothers, hnext,
        Element.node_eq_of_shape hshape]

end

end Renderer

end Render

end CanonicalMarkdown
