import CanonicalMarkdown.Proofs.Render.ListItem

namespace CanonicalMarkdown

open Document Output

/-! The numbers of the items of a list. -/

namespace Document

theorem exists_split_of_getElem?_filter {α : Type} {test : α → Bool} {items : List α}
    {index : Nat} {item : α} (hitem : (items.filter test)[index]? = some item) :
    ∃ left right, items = left ++ item :: right ∧ left.countP test = index := by
  induction items generalizing index with
  | nil => cases hitem
  | cons first rest ih =>
      by_cases hfirst : test first = true
      · rw [List.filter_cons_of_pos hfirst] at hitem
        cases index with
        | zero =>
            obtain rfl : first = item := Option.some.inj hitem
            exact ⟨[], rest, rfl, rfl⟩
        | succ index =>
            obtain ⟨left, right, rfl, hcount⟩ := ih hitem
            exact ⟨first :: left, right, rfl, by rw [List.countP_cons_of_pos hfirst, hcount]⟩
      · rw [List.filter_cons_of_neg hfirst] at hitem
        obtain ⟨left, right, rfl, hcount⟩ := ih hitem
        exact ⟨first :: left, right, rfl, by rw [List.countP_cons_of_neg hfirst, hcount]⟩

namespace Tree

def isItem (tree : Tree) (id : NodeId) : Bool := (tree.node? id).any (·.kind == .listItem)

/-- The list items among the children of a node. -/
def items (tree : Tree) (id : NodeId) : List NodeId := (tree.children id).filter tree.isItem

theorem countP_nodes (tree : Tree) (ids : List NodeId) :
    (tree.nodes ids).countP (·.kind == .listItem) = ids.countP tree.isItem := by
  induction ids with
  | nil => rfl
  | cons id rest ih =>
      rw [List.countP_cons, ← ih, nodes, List.filterMap_cons, isItem]
      cases tree.node? id with
      | none => rfl
      | some node => exact List.countP_cons

theorem Linked.itemPosition_eq {tree : Tree} (hlinked : tree.Linked) {list item : NodeId}
    {node : Node} {index : Nat} (hnode : tree.node? list = some node)
    (hitem : (tree.items list)[index]? = some item) :
    (tree.place item).itemPosition = index + 1 := by
  obtain ⟨left, right, hsplit, hcount⟩ := exists_split_of_getElem?_filter hitem
  rw [hlinked.place_of_split hsplit hnode, Place.itemPosition, List.countP_reverse, countP_nodes,
    hcount]

end Tree

/-! What is left of a document without the numbers at which its lists start. -/

/-- A list that starts at one in place of any other number. -/
def Node.unnumbered : Node → Node
  | .list ordered _ => .list ordered 1
  | node => node

@[simp] theorem Node.kind_unnumbered (node : Node) : node.unnumbered.kind = node.kind := by
  cases node <;> rfl

@[simp] theorem Node.isInline_unnumbered (node : Node) :
    node.unnumbered.isInline = node.isInline := by
  cases node <;> rfl

@[simp] theorem Node.isEmphasis_unnumbered (level : Nat) (node : Node) :
    node.unnumbered.isEmphasis level = node.isEmphasis level := by
  cases node <;> rfl

namespace Place

def unnumbered (place : Place) : Place where
  ancestors := place.ancestors.map Node.unnumbered
  previous := place.previous.map Node.unnumbered
  next := place.next.map Node.unnumbered

variable (place : Place)

@[simp] theorem hasPrevious_unnumbered : place.unnumbered.hasPrevious = place.hasPrevious := by
  simp [hasPrevious, unnumbered]

@[simp] theorem hasNext_unnumbered : place.unnumbered.hasNext = place.hasNext := by
  simp [hasNext, unnumbered]

@[simp] theorem isInList_unnumbered : place.unnumbered.isInList = place.isInList := by
  simp [isInList, listDepth, unnumbered, List.takeWhile_map, List.countP_map, Function.comp_def]

@[simp] theorem itemPosition_unnumbered :
    place.unnumbered.itemPosition = place.itemPosition := by
  simp [itemPosition, unnumbered, List.countP_map, Function.comp_def]

@[simp] theorem isInTextBlock_unnumbered :
    place.unnumbered.isInTextBlock = place.isInTextBlock := by
  simp [isInTextBlock, block?, unnumbered, List.find?_map, Option.any_map]

theorem parent?_unnumbered : place.unnumbered.parent? = place.parent?.map Node.unnumbered := by
  simp [parent?, unnumbered]

@[simp] theorem any_inlineAncestors_unnumbered (level : Nat) :
    place.unnumbered.inlineAncestors.any (·.isEmphasis level) =
      place.inlineAncestors.any (·.isEmphasis level) := by
  simp [inlineAncestors, unnumbered, List.takeWhile_map, Function.comp_def]

end Place

namespace Element

mutual

def unnumbered : Element → Element
  | .mk id node children => .mk id node.unnumbered (unnumberedAll children)

def unnumberedAll : List Element → List Element
  | [] => []
  | element :: rest => element.unnumbered :: unnumberedAll rest

end

theorem unnumberedAll_eq (elements : List Element) :
    unnumberedAll elements = elements.map unnumbered := by
  induction elements with
  | nil => rfl
  | cons element rest ih => rw [unnumberedAll, ih, List.map_cons]

theorem node_unnumbered (element : Element) :
    element.unnumbered.node = element.node.unnumbered := by
  cases element with
  | mk id node children => rfl

end Element

namespace Tree

def unnumbered (tree : Tree) : Tree :=
  ⟨tree.entries.map fun entry => { entry with node := entry.node.unnumbered }⟩

variable (tree : Tree)

theorem get?_unnumbered (id : NodeId) :
    tree.unnumbered.get? id =
      (tree.get? id).map fun entry => { entry with node := entry.node.unnumbered } := by
  simp [get?, unnumbered]

theorem size_unnumbered : tree.unnumbered.size = tree.size := by
  simp [size, unnumbered]

theorem node?_unnumbered (id : NodeId) :
    tree.unnumbered.node? id = (tree.node? id).map Node.unnumbered := by
  rw [node?, get?_unnumbered, Option.map_map, node?, Option.map_map]
  rfl

theorem children_unnumbered : tree.unnumbered.children = tree.children := by
  have hnext : tree.unnumbered.nextOf = tree.nextOf := by
    funext id
    rw [nextOf, get?_unnumbered, Option.bind_map]
    rfl
  funext id
  rw [children, size_unnumbered, hnext, firstOf, get?_unnumbered, Option.bind_map]
  rfl

theorem elementWithin_unnumbered (depth : Nat) (id : NodeId) (node : Node) :
    tree.unnumbered.elementWithin depth id node.unnumbered =
      (tree.elementWithin depth id node).unnumbered := by
  induction depth generalizing id node with
  | zero => rfl
  | succ depth ih =>
      rw [elementWithin, elementWithin, Element.unnumbered, Element.unnumberedAll_eq,
        children_unnumbered, List.map_filterMap]
      congr 1
      apply List.filterMap_congr
      intro child _
      rw [node?_unnumbered, Option.map_map, Option.map_map]
      congr 1
      funext own
      exact ih child own

theorem root_unnumbered : tree.unnumbered.root = tree.root.unnumbered := by
  have hnode : (tree.unnumbered.node? rootId).getD .document =
      ((tree.node? rootId).getD .document).unnumbered := by
    rw [node?_unnumbered]
    cases tree.node? rootId <;> rfl
  rw [root, hnode, size_unnumbered, elementWithin_unnumbered, root]

end Tree

end Document

namespace Render

theorem isOrderedList_unnumbered (node : Node) :
    Block.isOrderedList node.unnumbered = Block.isOrderedList node := by
  cases node <;> rfl

theorem itemMarker_unnumbered (place : Place) :
    Block.itemMarker place.unnumbered = Block.itemMarker place := by
  simp [Block.itemMarker, Place.parent?_unnumbered, Option.any_map, isOrderedList_unnumbered]

theorem isMerged_unnumbered (place : Place) (level : Nat) (phase : Phase) :
    Inline.isMerged place.unnumbered level phase = Inline.isMerged place level phase := by
  have hneighbour (node : Option Node) : (node.map Node.unnumbered).any (·.isEmphasis level) =
      node.any (·.isEmphasis level) := by
    simp [Option.any_map]
  rw [Inline.isMerged.eq_def, Inline.isMerged.eq_def, Place.any_inlineAncestors_unnumbered]
  cases phase with
  | enter =>
      have hprevious : place.unnumbered.previous.head? =
          place.previous.head?.map Node.unnumbered := List.head?_map
      simp only [hprevious, hneighbour]
  | leave => exact congrArg (· || _) (hneighbour place.next)

theorem literal_unnumbered (source : Source) (node : Node) :
    Inline.literal source node.unnumbered = Inline.literal source node := by
  cases node <;> rfl

namespace Renderer

variable (context : Context)

/-- No function looks at the number at which a list starts. -/
theorem render_unnumbered (place : Place) (element : Element) (phase : Phase)
    (parts : List Layout) :
    (standard context).render place.unnumbered element.unnumbered phase parts =
      (standard context).render place element phase parts := by
  obtain ⟨id, node, children⟩ := element
  cases node with
  | document | heading | thematicBreak | fencedCodeBlock | htmlBlock | strikethrough | autoLink
  | link | rawHtml => rfl
  | paragraph =>
      change Block.paragraph _ = Block.paragraph _
      simp only [Block.paragraph, Place.isInList_unnumbered, Place.hasPrevious_unnumbered,
        Place.hasNext_unnumbered]
      rfl
  | textBlock =>
      change Block.textBlock _ = Block.textBlock _
      simp only [Block.textBlock, Place.hasNext_unnumbered]
  | blockquote =>
      change Block.blockquote _ = Block.blockquote _
      simp only [Block.blockquote, Place.isInList_unnumbered, Place.hasPrevious_unnumbered]
      rfl
  | list ordered start =>
      change Block.list _ = Block.list _
      simp only [Block.list, Place.parent?_unnumbered, Option.any_map, Node.kind_unnumbered,
        Place.hasNext_unnumbered]
  | listItem =>
      have hquote : (Element.unnumberedAll children).getLast?.any (·.kind == .blockquote) =
          children.getLast?.any (·.kind == .blockquote) := by
        rw [Element.unnumberedAll_eq, List.getLast?_map, Option.any_map]
        congr 1
        funext child
        rw [Element.kind, Element.node_unnumbered, Node.kind_unnumbered, Element.kind]
      change Block.listItem _ = Block.listItem _
      simp only [Block.listItem, itemMarker_unnumbered, Place.hasNext_unnumbered,
        Element.unnumbered, Element.children, hquote]
      rfl
  | codeBlock lines =>
      change Block.codeBlock _ = Block.codeBlock _
      simp only [Block.codeBlock, Place.isInList_unnumbered]
      rfl
  | codeSpan =>
      have hpieces : (Element.unnumberedAll children).map
            (fun child => Inline.literal context.source child.node) =
          children.map fun child => Inline.literal context.source child.node := by
        rw [Element.unnumberedAll_eq, List.map_map]
        apply List.map_congr_left
        intro child _
        exact (congrArg _ child.node_unnumbered).trans (literal_unnumbered _ _)
      change Inline.codeSpan _ = Inline.codeSpan _
      simp only [Inline.codeSpan, Element.unnumbered, Element.children, standard, hpieces]
  | emphasis level =>
      change (standard context).render _ (.mk id (.emphasis level) _) phase parts = _
      rw [render_emphasis, render_emphasis, marking, marking, isMerged_unnumbered]
  | image destination label alt =>
      change Inline.image _ = Inline.image _
      simp only [Inline.image, Place.parent?_unnumbered, Option.all_map, Node.kind_unnumbered]
      rfl
  | text segment raw soft hard =>
      change Inline.text _ = Inline.text _
      simp only [Inline.text, Inline.lineBreak, Place.isInTextBlock_unnumbered]
      rfl
  | string value =>
      change Inline.string _ = Inline.string _
      simp only [Inline.string, Place.unnumbered, Option.any_map, Node.kind_unnumbered]
      rfl

mutual

theorem walk_unnumbered : (place : Place) → (element : Element) →
    (standard context).walk place.unnumbered element.unnumbered =
      (standard context).walk place element
  | place, .mk id node children => by
      have hparts := walkEach_unnumbered (node :: place.ancestors) [] children
      have hrender := render_unnumbered context place (.mk id node children)
      rw [Element.unnumbered] at hrender
      rw [Element.unnumbered, walk, walk]
      change (standard context).around _ _ ((standard context).walkEach
        ((node :: place.ancestors).map Node.unnumbered) ([].map Node.unnumbered) _) = _
      rw [hparts]
      simp only [around, hrender, Element.id]

theorem walkEach_unnumbered : (ancestors previous : List Node) → (elements : List Element) →
    (standard context).walkEach (ancestors.map Node.unnumbered) (previous.map Node.unnumbered)
        (Element.unnumberedAll elements) =
      (standard context).walkEach ancestors previous elements
  | _, _, [] => rfl
  | ancestors, previous, element :: rest => by
      have hnext : (Element.unnumberedAll rest).head?.map Element.node =
          (rest.head?.map Element.node).map Node.unnumbered := by
        cases rest with
        | nil => rfl
        | cons next others => exact congrArg some next.node_unnumbered
      have hfirst := walk_unnumbered ⟨ancestors, previous, rest.head?.map Element.node⟩ element
      have hothers := walkEach_unnumbered ancestors (element.node :: previous) rest
      rw [Element.unnumberedAll, walkEach, walkEach, hnext, element.node_unnumbered, ← hothers,
        ← hfirst]
      rfl

end

end Renderer

theorem Formatter.render_unnumbered (options : Options) (formatCode : CodeFormatter)
    (metadata : Option Yaml.Value) (source : Source) (tree : Tree) :
    ({ options, formatCode } : Formatter).render metadata source tree.unnumbered =
      ({ options, formatCode } : Formatter).render metadata source tree := by
  have hbody : ({ options, formatCode } : Formatter).body source tree.unnumbered =
      ({ options, formatCode } : Formatter).body source tree := by
    rw [Formatter.body, Formatter.body, Tree.root_unnumbered]
    exact Renderer.walk_unnumbered { source, options, formatCode } Place.root tree.root
  rw [Formatter.render, Formatter.render, Formatter.document, Formatter.document, hbody]

/-- Whatever is laid out for an item begins with its marker. -/
theorem Renderer.exists_output_item (context : Context) {tree : Tree} (hlinked : tree.Linked)
    {item : NodeId} (hnode : tree.node? item = some .listItem) :
    ∃ rest, ((standard context).layoutOf tree item).output =
      Block.itemMarker (tree.place item) ++ rest := by
  let content := Layout.concat ((tree.children item).map ((standard context).layoutOf tree))
  have henter : (standard context).render (tree.place item)
      (.mk item .listItem (tree.elements (tree.children item))) .enter
      ((tree.children item).map ((standard context).layoutOf tree)) =
        .skipChildren (Block.hung (Block.itemMarker (tree.place item)) content) := rfl
  have hhung := outcome_hung (newline_not_mem_itemMarker (tree.place item)) content
  rw [(standard context).layoutOf_eq hlinked hnode, around_of_skipChildren _ henter,
    Layout.output_visit, Layout.output, Layout.outcome_append, hhung]
  cases content.outcome.result with
  | error error => exact ⟨_, rfl⟩
  | ok _ => exact ⟨_, List.append_assoc _ _ _⟩

/-- The items of an ordered list are numbered from one on, whatever else stands among them, and the
number at which a list starts in the source has no effect on what is written. -/
theorem Formatter.ordered_items_count_from_one (options : Options) (formatCode : CodeFormatter)
    (source : Source) :
    let formatter : Formatter := { options, formatCode }
    (∀ tree : Tree, tree.Grown → ∀ list start index item,
      tree.node? list = some (.list true start) → (tree.items list)[index]? = some item →
        let marker := Bytes.ofText (toString (index + 1) ++ ". ")
        Block.itemMarker (tree.place item) = marker ∧
          ∃ rest, ((formatter.renderer source).layoutOf tree item).output = marker ++ rest) ∧
    ∀ metadata (tree twin : Tree), tree.unnumbered = twin.unnumbered →
      formatter.render metadata source tree = formatter.render metadata source twin := by
  intro formatter
  refine ⟨?_, ?_⟩
  · intro tree hgrown list start index item hlist hitem marker
    have hlinked := hgrown.linked
    obtain ⟨hchild, hkind⟩ := List.mem_filter.mp (List.mem_of_getElem? hitem)
    obtain ⟨node, hnode, hkind⟩ := (Option.any_eq_true ..).mp hkind
    obtain rfl : node = .listItem := by cases node <;> first | rfl | cases hkind
    have hparent : (tree.place item).parent? = some (.list true start) := by
      rw [Place.parent?, hlinked.ancestors_place_child (hlinked.mem_children.mp hchild) hlist]
      rfl
    have hmarker : Block.itemMarker (tree.place item) = marker := by
      rw [Block.itemMarker, hparent, hlinked.itemPosition_eq hlist hitem]
      rfl
    have houtput :=
      Renderer.exists_output_item { source, options, formatCode } hlinked hnode
    rw [hmarker] at houtput
    exact ⟨hmarker, houtput⟩
  · intro metadata tree twin hsame
    rw [← Formatter.render_unnumbered options formatCode metadata source tree, hsame,
      Formatter.render_unnumbered]

/-- A list that starts at seven, with a paragraph between its two items. -/
def lateList : Tree :=
  (((Tree.new.appended Tree.rootId (.list true 7)).appended 1 .listItem).appended 1
    .paragraph).appended 1 .listItem

theorem lateList_grown : lateList.Grown :=
  .append (.append (.append (.append .new (Tree.append?_of_lt (by decide) _))
    (Tree.append?_of_lt (by decide) _)) (Tree.append?_of_lt (by decide) _))
    (Tree.append?_of_lt (by decide) _)

theorem Formatter.lateList_counts_from_one :
    let formatter : Formatter := {}
    let twin := lateList.set 1 (.list true 2)
    lateList.Grown ∧ lateList.items 1 = [2, 4] ∧
      Block.itemMarker (lateList.place 4) = Bytes.ofText "2. " ∧
      (∃ rest, ((formatter.renderer #[]).layoutOf lateList 4).output =
        Bytes.ofText "2. " ++ rest) ∧
      lateList.unnumbered = twin.unnumbered ∧ lateList ≠ twin ∧
      formatter.render none #[] lateList = formatter.render none #[] twin := by
  intro formatter twin
  obtain ⟨hmarkers, hstarts⟩ := Formatter.ordered_items_count_from_one {} .none #[]
  obtain ⟨hmarker, houtput⟩ := hmarkers lateList lateList_grown 1 7 1 4 (by decide) (by decide)
  have hsame : lateList.unnumbered = twin.unnumbered := by decide +kernel
  exact ⟨lateList_grown, by decide, hmarker, houtput, hsame, by decide,
    hstarts none lateList twin hsame⟩

end Render

end CanonicalMarkdown
