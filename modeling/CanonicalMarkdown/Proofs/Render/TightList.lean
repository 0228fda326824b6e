import CanonicalMarkdown.Proofs.Render.Quotation
import CanonicalMarkdown.Proofs.Render.TightText

namespace CanonicalMarkdown

open Document Output

/-! Lines that are complete. -/

namespace Bytes

theorem exists_complete_of_mem_lines {data line : Bytes}
    (hline : line ∈ lines (data ++ [newline])) :
    ∃ text, newline ∉ text ∧ line = text ++ [newline] := by
  induction data using line_induction with
  | rest text htext =>
      rw [lines_line htext] at hline
      exact ⟨text, htext, by simpa [lines] using hline⟩
  | line text data htext ih =>
      rw [List.append_assoc, List.cons_append, lines_line htext, List.mem_cons] at hline
      rcases hline with rfl | hrest
      · exact ⟨text, htext, rfl⟩
      · exact ih hrest

theorem lines_flatten {pieces : List Bytes}
    (hcomplete : ∀ piece ∈ pieces, ∃ text, newline ∉ text ∧ piece = text ++ [newline]) :
    lines pieces.flatten = pieces := by
  induction pieces with
  | nil => rfl
  | cons piece rest ih =>
      rw [List.forall_mem_cons] at hcomplete
      obtain ⟨⟨text, htext, rfl⟩, hrest⟩ := hcomplete
      rw [List.flatten_cons, List.append_assoc, List.singleton_append, lines_line htext, ih hrest]

theorem lines_concat_ne_nil (data : Bytes) : lines (data ++ [newline]) ≠ [] := by
  intro hnil
  simpa using lines_eq_nil hnil

theorem lines_joined (first second : Bytes) :
    lines (first ++ [newline] ++ second ++ [newline]) =
      lines (first ++ [newline]) ++ lines (second ++ [newline]) := by
  rw [List.append_assoc (first ++ [newline])]
  exact lines_append (.inr (by simp [endsLine])) _

end Bytes

namespace Render

/-! The lines of an item. -/

/-- The marker before the first line, and spaces of the same width before the others. -/
def hang (marker : Bytes) : List Bytes → List Bytes
  | [] => []
  | first :: rest => (marker ++ first) :: rest.map (Layer.spaces marker.length ++ ·)

theorem hang_append {marker : Bytes} {first : List Bytes} (hfirst : first ≠ [])
    (second : List Bytes) :
    hang marker (first ++ second) =
      hang marker first ++ second.map (Layer.spaces marker.length ++ ·) := by
  obtain ⟨line, first, rfl⟩ := List.exists_cons_of_ne_nil hfirst
  simp [hang]

theorem not_blank_hang {marker : Bytes} (hmarker : marker.isBlankLine = false) {lines : List Bytes}
    (hlines : ∀ line ∈ lines.tail, line.isBlankLine = false) :
    ∀ line ∈ hang marker lines, line.isBlankLine = false := by
  cases lines with
  | nil => simp [hang]
  | cons first rest =>
      rw [hang, List.forall_mem_cons, List.forall_mem_map, Bytes.isBlankLine_append, hmarker]
      refine ⟨rfl, fun line hline => ?_⟩
      rw [Bytes.isBlankLine_append, hlines line hline, Bool.and_false]

/-- Content without blank lines after its first, hung under a marker. -/
theorem lines_hungLines {marker : Bytes} (hmarker : Bytes.newline ∉ marker) {content : Bytes}
    (hlines : ∀ line ∈ (Bytes.lines (content ++ [Bytes.newline])).tail, line.isBlankLine = false) :
    Bytes.lines (marker ++ hungLines marker.length content ++ [Bytes.newline]) =
      hang marker (Bytes.lines (content ++ [Bytes.newline])) := by
  have hending (atLineStart : Bool) : Layer.marked (Layer.spaces marker.length) atLineStart
      [Bytes.newline] = [Bytes.newline] := by
    cases atLineStart with
    | false => rfl
    | true => simp [Layer.marked, Layer.lead_spaces_newline]
  have hhung : hungLines marker.length content ++ [Bytes.newline] =
      hungLines marker.length (content ++ [Bytes.newline]) := by
    rw [← Layer.marked_spaces, ← Layer.marked_spaces, Layer.marked_append, hending]
  have hcomplete : ∀ line ∈ Bytes.lines (content ++ [Bytes.newline]), ∃ text,
      Bytes.newline ∉ text ∧ line = text ++ [Bytes.newline] :=
    fun line hline => Bytes.exists_complete_of_mem_lines hline
  obtain ⟨first, rest, hfirst⟩ :=
    List.exists_cons_of_ne_nil (Bytes.lines_concat_ne_nil content)
  rw [hfirst, List.forall_mem_cons] at hcomplete
  rw [hfirst, List.tail_cons] at hlines
  have hspaced : rest.flatMap (hungLine marker.length) =
      (rest.map (Layer.spaces marker.length ++ ·)).flatten := by
    rw [← List.flatMap_def]
    apply List.flatMap_congr
    intro line hline
    have hshown : line ≠ [Bytes.newline] := by
      rintro rfl
      cases hlines _ hline
    rw [hungLine, if_neg hshown]
    rfl
  have hpieces : marker ++ hungLines marker.length (content ++ [Bytes.newline]) =
      (hang marker (first :: rest)).flatten := by
    rw [hungLines, hfirst, hang, List.flatten_cons, ← hspaced, List.append_assoc]
  rw [List.append_assoc, hhung, hpieces, hfirst]
  apply Bytes.lines_flatten
  rw [hang, List.forall_mem_cons, List.forall_mem_map]
  refine ⟨?_, fun line hline => ?_⟩
  · obtain ⟨text, htext, rfl⟩ := hcomplete.1
    exact ⟨marker ++ text, by simp [hmarker, htext], by simp⟩
  · obtain ⟨text, htext, rfl⟩ := hcomplete.2 line hline
    refine ⟨Layer.spaces marker.length ++ text, ?_, by simp⟩
    rw [List.mem_append, not_or]
    exact ⟨Layer.newline_not_mem_spaces _, htext⟩

theorem not_blank_itemMarker (place : Place) : (Block.itemMarker place).isBlankLine = false := by
  unfold Block.itemMarker
  split
  · rw [Bytes.ofText_append, Bytes.isBlankLine_append]
    exact Bool.and_false _
  · rfl

/-! Tight lists. -/

mutual

/-- A list of one or more tight items. -/
inductive IsTightList (source : Source) : Element → Prop
  | mk (id : NodeId) (ordered : Bool) (start : Nat) {items : List Element} :
      items ≠ [] → (∀ item ∈ items, IsTightItem source item) →
        IsTightList source (.mk id (.list ordered start) items)

/-- An item with nothing but a text and perhaps a tight list after it. -/
inductive IsTightItem (source : Source) : Element → Prop
  | text (id : NodeId) {block : Element} :
      IsTightText source block → IsTightItem source (.mk id .listItem [block])
  | nesting (id : NodeId) {block list : Element} :
      IsTightText source block → IsTightList source list →
        IsTightItem source (.mk id .listItem [block, list])

end

end Render

/-! The items in an element, and the elements of a tree. -/

namespace Document

/-- The list items among an element and all that is below it. -/
def Element.items (element : Element) : List Element := element.all.filter (·.kind == .listItem)

theorem Element.allOf_eq_flatMap (elements : List Element) :
    allOf elements = elements.flatMap all := by
  induction elements with
  | nil => rfl
  | cons element rest ih => rw [allOf, List.flatMap_cons, ih]

theorem Element.items_eq (element : Element) :
    element.items =
      (if element.kind == .listItem then [element] else []) ++ element.children.flatMap items := by
  have hbelow : element.descendants.filter (·.kind == .listItem) =
      element.children.flatMap items := by
    rw [descendants, allOf_eq_flatMap, List.filter_flatMap]
    rfl
  rw [items, all_eq, List.filter_cons, hbelow]
  split <;> rfl

namespace Tree.Linked

variable {tree : Tree} (hlinked : tree.Linked)
include hlinked

theorem children_of_element? {id : NodeId} {element : Element}
    (helement : tree.element? id = some element) :
    tree.children id = element.children.map Element.id ∧
      ∀ child ∈ element.children, tree.element? child.id = some child := by
  obtain ⟨-, hchildren⟩ := hlinked.eq_of_element? helement
  have hsome : ∀ child ∈ tree.children id, ∃ inner, tree.element? child = some inner ∧
      inner.id = child := by
    intro child hchild
    obtain ⟨node, hnode⟩ := hlinked.exists_node?_of_mem_children hchild
    exact ⟨_, hlinked.element?_eq hnode, rfl⟩
  rw [hchildren, Element.children]
  generalize tree.children id = ids at hsome
  induction ids with
  | nil => exact ⟨rfl, by simp [elements]⟩
  | cons child ids ih =>
      rw [List.forall_mem_cons] at hsome
      obtain ⟨⟨inner, hinner, rfl⟩, hrest⟩ := hsome
      obtain ⟨hids, helements⟩ := ih hrest
      have hcons : tree.elements (inner.id :: ids) = inner :: tree.elements ids :=
        List.filterMap_cons_some hinner
      rw [hcons, List.map_cons, List.forall_mem_cons, ← hids]
      exact ⟨rfl, hinner, helements⟩

theorem hasNext_of_split {parent child : NodeId} {left right : List NodeId} {node : Node}
    (hsplit : tree.children parent = left ++ child :: right)
    (hnode : tree.node? parent = some node) : (tree.place child).hasNext = !right.isEmpty := by
  rw [hlinked.place_of_split hsplit hnode]
  cases right with
  | nil => rfl
  | cons next rest =>
      have hmem : next ∈ tree.children parent := by simp [hsplit]
      obtain ⟨other, hother⟩ := hlinked.exists_node?_of_mem_children hmem
      simp [Place.hasNext, hother]

end Tree.Linked

end Document

namespace Render

/-! What a tight list is laid out as. -/

/-- The width of all markers around a node. -/
def indentOf (tree : Tree) (id : NodeId) : Nat := ((tree.ancestors id).map (markerWidth tree)).sum

/-- The text of an item whose first block holds it. -/
def Renderer.itemText (renderer : Renderer) (tree : Tree) (item : Element) : Bytes :=
  (item.children.head?.map fun block =>
    (renderer.content (tree.place block.id) block).output).getD []

/-- The lines of the text, hung under the marker of the item and indented by all markers around. -/
def Renderer.itemLines (renderer : Renderer) (tree : Tree) (item : Element) : List Bytes :=
  let marker := Block.itemMarker (tree.place item.id)
  (hang marker (Bytes.lines (renderer.itemText tree item ++ [Bytes.newline]))).map
    (Layer.spaces (indentOf tree item.id) ++ ·)

/-- Apart from its indentation, a text is the lines of the items, none of them blank. -/
structure Itemized (renderer : Renderer) (tree : Tree) (items : List Element) (indent : Nat)
    (body : Bytes) : Prop where
  not_blank : ∀ line ∈ Bytes.lines (body ++ [Bytes.newline]), line.isBlankLine = false
  lines_eq : (Bytes.lines (body ++ [Bytes.newline])).map (Layer.spaces indent ++ ·) =
    items.flatMap (renderer.itemLines tree)

theorem Itemized.join {renderer : Renderer} {tree : Tree} {first second : List Element}
    {indent : Nat} {body rest : Bytes} (hfirst : Itemized renderer tree first indent body)
    (hsecond : Itemized renderer tree second indent rest) :
    Itemized renderer tree (first ++ second) indent (body ++ [Bytes.newline] ++ rest) where
  not_blank := by
    rw [Bytes.lines_joined, List.forall_mem_append]
    exact ⟨hfirst.not_blank, hsecond.not_blank⟩
  lines_eq := by
    rw [Bytes.lines_joined, List.map_append, List.flatMap_append, hfirst.lines_eq,
      hsecond.lines_eq]

/-- The text of an item hung under its marker, with lines below it that the marker indents. -/
theorem Itemized.hung {renderer : Renderer} {tree : Tree} {item : Element}
    (hscan : Bytes.scan false (renderer.itemText tree item) = some false)
    {content : Bytes} {below : List Bytes}
    (hcontent : Bytes.lines (content ++ [Bytes.newline]) =
      Bytes.lines (renderer.itemText tree item ++ [Bytes.newline]) ++ below)
    (hbelow : ∀ line ∈ below, line.isBlankLine = false) {nested : List Element}
    (hnested : below.map (Layer.spaces
        ((Block.itemMarker (tree.place item.id)).length + indentOf tree item.id) ++ ·) =
      nested.flatMap (renderer.itemLines tree)) :
    Itemized renderer tree (item :: nested) (indentOf tree item.id)
      (Block.itemMarker (tree.place item.id) ++
        hungLines (Block.itemMarker (tree.place item.id)).length content) := by
  generalize hmarker : Block.itemMarker (tree.place item.id) = marker at hnested ⊢
  have hfirst := Bytes.lines_concat_ne_nil (renderer.itemText tree item)
  have htail : ∀ line ∈ (Bytes.lines (content ++ [Bytes.newline])).tail,
      line.isBlankLine = false := by
    rw [hcontent, List.tail_append_of_ne_nil hfirst, List.forall_mem_append]
    exact ⟨Bytes.not_blank_tail_of_scan hscan, hbelow⟩
  have hnewline : Bytes.newline ∉ marker := hmarker ▸ newline_not_mem_itemMarker _
  have hlines := lines_hungLines hnewline htail
  have hspaces (line : Bytes) : Layer.spaces (indentOf tree item.id) ++
      (Layer.spaces marker.length ++ line) =
        Layer.spaces (marker.length + indentOf tree item.id) ++ line := by
    rw [← List.append_assoc, Layer.spaces_append, Nat.add_comm]
  refine ⟨?_, ?_⟩
  · rw [hlines]
    exact not_blank_hang (hmarker ▸ not_blank_itemMarker _) htail
  · rw [hlines, hcontent, hang_append hfirst, List.map_append, List.flatMap_cons, ← hnested,
      List.map_map, Renderer.itemLines, hmarker]
    congr 1
    exact List.map_congr_left fun line _ => hspaces line

theorem IsTightText.items_eq_nil {source : Source} {block : Element}
    (htight : IsTightText source block) : block.items = [] := by
  rw [Element.items, List.filter_eq_nil_iff, Element.all_eq, List.forall_mem_cons]
  refine ⟨by simp [Element.kind, htight.node_eq, Node.kind], fun inner hinner hitem => ?_⟩
  have hinline := (htight.isTight inner hinner).isInline
  have hkind : inner.node.kind = .listItem := by simpa [Element.kind] using hitem
  rw [Node.isInline, hkind] at hinline
  cases hinline

namespace Renderer

section

variable (context : Context) (place : Place) {element : Element}

theorem outcome_walk_textBlock (hblock : element.node = .textBlock) :
    ((standard context).walk place element).outcome =
      ((standard context).content place element).outcome.followedBy
        (Layout.when place.hasNext .newline).outcome := by
  obtain ⟨id, node, children⟩ := element
  obtain rfl : node = .textBlock := hblock
  rw [walk_eq, around_of_descend place rfl, Layout.outcome_visit, Layout.done_append,
    Layout.outcome_append]
  rfl

theorem outcome_walk_list {ordered : Bool} {start : Nat}
    (hlist : element.node = .list ordered start) :
    ((standard context).walk place element).outcome =
      ((standard context).content place element).outcome.followedBy
        (if place.parent?.any (·.kind == .listItem) then Layout.when place.hasNext .newline
          else .blankLine).outcome := by
  obtain ⟨id, node, children⟩ := element
  obtain rfl : node = .list ordered start := hlist
  rw [walk_eq, around_of_descend place rfl, Layout.outcome_visit, Layout.done_append,
    Layout.outcome_append]
  congr 1
  change (if place.parent?.any (·.kind == .listItem) then
      Rendering.descend (Layout.when place.hasNext .newline)
    else .descend .blankLine).layout.outcome = _
  split <;> rfl

theorem outcome_walk_item (hitem : element.node = .listItem)
    (hlast : element.children.getLast?.any (·.kind == .blockquote) = false) :
    ((standard context).walk place element).outcome =
      (Block.hung (Block.itemMarker place)
        ((standard context).content place element)).outcome.followedBy
          (Layout.when place.hasNext .newline).outcome := by
  obtain ⟨id, node, children⟩ := element
  obtain rfl : node = .listItem := hitem
  rw [walk_eq, around_of_skipChildren place rfl, Layout.outcome_visit, Layout.outcome_append]
  congr 1
  change (Layout.when (place.hasNext && !children.getLast?.any (·.kind == .blockquote))
    .newline).outcome = _
  change children.getLast?.any (·.kind == .blockquote) = false at hlast
  rw [hlast, Bool.not_false, Bool.and_true]

end

theorem content_eq (renderer : Renderer) {tree : Tree} (hlinked : tree.Linked) {id : NodeId}
    {element : Element} (helement : tree.element? id = some element) :
    renderer.content (tree.place id) element =
      .concat (element.children.map fun child => renderer.walk (tree.place child.id) child) := by
  obtain ⟨hnode, hwhole⟩ := hlinked.eq_of_element? helement
  obtain ⟨hids, hchildren⟩ := hlinked.children_of_element? helement
  have hparts : renderer.parts (tree.place id) element =
      (element.children.map Element.id).map (renderer.layoutOf tree) := by
    rw [hwhole, renderer.parts_eq hlinked hnode, ← hwhole, hids]
  rw [content, hparts, List.map_map]
  congr 1
  apply List.map_congr_left
  intro child hchild
  simp [layoutOf, hchildren child hchild]

/-- However line breaks are treated, an item is laid out as the lines of the items in it, and ended
by a newline if another follows. -/
def ShowsItem (context : Context) (tree : Tree) (item : Element) : Prop :=
  ∃ body, (∀ hardWraps, ((standard (context.rewrapped hardWraps)).walk (tree.place item.id)
      item).outcome = (Written.all body).followedBy
        (Layout.when (tree.place item.id).hasNext .newline).outcome) ∧
    Itemized (standard context) tree item.items (indentOf tree item.id) body

def ShowsList (context : Context) (tree : Tree) (list : Element) : Prop :=
  ∃ body, (∀ hardWraps, ((standard (context.rewrapped hardWraps)).content (tree.place list.id)
      list).outcome = .all body) ∧
    Itemized (standard context) tree list.items (indentOf tree list.id) body

section

variable {context : Context} {tree : Tree} (hlinked : tree.Linked)
include hlinked

theorem indentOf_child {parent child : NodeId} (hparent : tree.parentOf child = some parent) :
    indentOf tree child = markerWidth tree parent + indentOf tree parent := by
  rw [indentOf, hlinked.ancestors_child hparent, List.map_cons, List.sum_cons]
  rfl

/-- The items of a list one after the other, each but the last ended by a newline. -/
theorem shows_siblings {parent : NodeId} {node : Node} (hnode : tree.node? parent = some node)
    {left right : List Element} (hright : right ≠ [])
    (hsplit : tree.children parent = (left ++ right).map Element.id) {indent : Nat}
    (hindent : ∀ item ∈ right, indentOf tree item.id = indent)
    (hitems : ∀ item ∈ right, ShowsItem context tree item) :
    ∃ body, (∀ hardWraps, (Layout.concat (right.map fun item =>
        (standard (context.rewrapped hardWraps)).walk (tree.place item.id) item)).outcome =
          .all body) ∧
      Itemized (standard context) tree (right.flatMap Element.items) indent body := by
  induction right generalizing left with
  | nil => exact absurd rfl hright
  | cons item rest ih =>
      rw [List.forall_mem_cons] at hindent hitems
      obtain ⟨⟨body, hbody, hitemized⟩, hothers⟩ := hitems
      have hnext : (tree.place item.id).hasNext = !(rest.map Element.id).isEmpty :=
        hlinked.hasNext_of_split (by simpa using hsplit) hnode
      rw [hindent.1] at hitemized
      cases rest with
      | nil =>
          refine ⟨body, fun hardWraps => ?_, by simpa using hitemized⟩
          rw [List.map_singleton, Layout.concat, Layout.outcome_append, hbody, hnext]
          simp [Layout.concat, Layout.when]
      | cons next rest =>
          have hpassed :
              tree.children parent = (left ++ [item] ++ next :: rest).map Element.id := by
            simpa using hsplit
          obtain ⟨tail, htail, hlisted⟩ := ih (List.cons_ne_nil _ _) hpassed hindent.2 hothers
          refine ⟨body ++ [Bytes.newline] ++ tail, fun hardWraps => ?_, hitemized.join hlisted⟩
          rw [List.map_cons, Layout.concat, Layout.outcome_append, hbody, hnext, htail]
          rfl

theorem showsList_of_items {id : NodeId} {ordered : Bool} {start : Nat} {items : List Element}
    (hnonempty : items ≠ [])
    (helement : tree.element? id = some (.mk id (.list ordered start) items))
    (hitems : ∀ item ∈ items, ShowsItem context tree item) :
    ShowsList context tree (.mk id (.list ordered start) items) := by
  obtain ⟨hnode, -⟩ := hlinked.eq_of_element? helement
  obtain ⟨hids, hchildren⟩ := hlinked.children_of_element? helement
  have hindent : ∀ item ∈ items, indentOf tree item.id = indentOf tree id := by
    intro item hitem
    have hparent : tree.parentOf item.id = some id := by
      rw [← hlinked.mem_children, hids]
      exact List.mem_map_of_mem hitem
    have hwidth : markerWidth tree id = 0 := by
      rw [markerWidth, if_neg (by simp [hnode, Element.node])]
    rw [indentOf_child hlinked hparent, hwidth, Nat.zero_add]
  have hall : tree.children id = ([] ++ items).map Element.id := hids
  obtain ⟨body, hbody, hitemized⟩ := shows_siblings hlinked hnode hnonempty hall hindent hitems
  refine ⟨body, fun hardWraps => ?_, ?_⟩
  · exact (congrArg Layout.outcome (content_eq _ hlinked helement)).trans (hbody hardWraps)
  · rw [Element.items_eq]
    exact hitemized

omit hlinked in
theorem showsItem_of_content {item : Element} (hitem : item.node = .listItem)
    (hlast : item.children.getLast?.any (·.kind == .blockquote) = false) {content : Bytes}
    (hcontent : ∀ hardWraps, ((standard (context.rewrapped hardWraps)).content
      (tree.place item.id) item).outcome = .all content)
    (hitemized : Itemized (standard context) tree item.items (indentOf tree item.id)
      (Block.itemMarker (tree.place item.id) ++
        hungLines (Block.itemMarker (tree.place item.id)).length content)) :
    ShowsItem context tree item := by
  refine ⟨_, fun hardWraps => ?_, hitemized⟩
  rw [outcome_walk_item _ _ hitem hlast, outcome_hung (newline_not_mem_itemMarker _),
    hcontent hardWraps]
  rfl

omit hlinked in
theorem outcome_walk_text {block : Element} (htight : IsTightText context.source block)
    (hardWraps : Bool) :
    ((standard (context.rewrapped hardWraps)).walk (tree.place block.id) block).outcome =
      (Written.all ((standard context).content (tree.place block.id) block).output).followedBy
        (Layout.when (tree.place block.id).hasNext .newline).outcome := by
  rw [outcome_walk_textBlock _ _ htight.node_eq, htight.content_rewrapped,
    Layout.outcome_eq_all (htight.fills_content _).failure_eq]

theorem showsItem_of_text {id : NodeId} {block : Element}
    (htight : IsTightText context.source block)
    (helement : tree.element? id = some (.mk id .listItem [block])) :
    ShowsItem context tree (.mk id .listItem [block]) := by
  obtain ⟨hnode, -⟩ := hlinked.eq_of_element? helement
  obtain ⟨hids, -⟩ := hlinked.children_of_element? helement
  have hnext : (tree.place block.id).hasNext = false := by
    have hsplit : tree.children id = [] ++ block.id :: [] := hids
    exact hlinked.hasNext_of_split hsplit hnode
  have hcontent (hardWraps : Bool) : ((standard (context.rewrapped hardWraps)).content
      (tree.place id) (.mk id .listItem [block])).outcome =
        .all ((standard context).content (tree.place block.id) block).output := by
    rw [content_eq _ hlinked helement, Element.children, List.map_singleton, Layout.concat,
      Layout.outcome_append, outcome_walk_text htight, hnext]
    simp [Layout.concat, Layout.when]
  have hquote : block.kind ≠ .blockquote := by simp [Element.kind, htight.node_eq, Node.kind]
  refine showsItem_of_content rfl (by simpa [Element.children] using hquote) hcontent ?_
  have hitems : (Element.mk id .listItem [block]).items = [.mk id .listItem [block]] := by
    rw [Element.items_eq, Element.children, List.flatMap_singleton, htight.items_eq_nil]
    rfl
  have hscan : Bytes.scan false ((standard context).itemText tree (.mk id .listItem [block])) =
      some false := htight.scan_content _
  rw [hitems]
  exact .hung hscan (List.append_nil _).symm (by simp) rfl

theorem showsItem_of_nesting {id : NodeId} {block list : Element}
    (htight : IsTightText context.source block)
    (helement : tree.element? id = some (.mk id .listItem [block, list])) {ordered : Bool}
    {start : Nat} (hlist : list.node = .list ordered start)
    (hshown : ShowsList context tree list) :
    ShowsItem context tree (.mk id .listItem [block, list]) := by
  obtain ⟨hnode, -⟩ := hlinked.eq_of_element? helement
  obtain ⟨hids, -⟩ := hlinked.children_of_element? helement
  obtain ⟨body, hbody, hitemized⟩ := hshown
  have hnext : (tree.place block.id).hasNext = true := by
    have hsplit : tree.children id = [] ++ block.id :: [list.id] := hids
    exact hlinked.hasNext_of_split hsplit hnode
  have hlast : tree.children id = [block.id] ++ list.id :: [] := hids
  have hnested (hardWraps : Bool) : ((standard (context.rewrapped hardWraps)).walk
      (tree.place list.id) list).outcome = .all body := by
    have hparent : (tree.place list.id).parent?.any (·.kind == .listItem) = true := by
      rw [hlinked.place_of_split hlast hnode]
      rfl
    rw [outcome_walk_list _ _ hlist, if_pos hparent, hlinked.hasNext_of_split hlast hnode, hbody]
    simp [Layout.when]
  have hcontent (hardWraps : Bool) : ((standard (context.rewrapped hardWraps)).content
      (tree.place id) (.mk id .listItem [block, list])).outcome =
        .all (((standard context).content (tree.place block.id) block).output ++
          [Bytes.newline] ++ body) := by
    rw [content_eq _ hlinked helement]
    simp only [Element.children, List.map_cons, List.map_nil, Layout.concat, Layout.outcome_append,
      outcome_walk_text htight, hnext, hnested]
    simp [Layout.when]
  refine showsItem_of_content rfl ?_ hcontent ?_
  · simp [Element.children, Element.kind, hlist, Node.kind]
  · have hitems : (Element.mk id .listItem [block, list]).items =
        .mk id .listItem [block, list] :: list.items := by
      rw [Element.items_eq, Element.children, List.flatMap_cons, List.flatMap_singleton,
        htight.items_eq_nil]
      rfl
    have hindent : indentOf tree list.id =
        (Block.itemMarker (tree.place id)).length + indentOf tree id := by
      rw [indentOf_child hlinked (hlinked.parentOf_of_split hlast), markerWidth]
      exact congrArg (· + _) (if_pos hnode)
    have hscan : Bytes.scan false ((standard context).itemText tree
        (.mk id .listItem [block, list])) = some false := htight.scan_content _
    rw [hindent] at hitemized
    rw [hitems]
    exact .hung hscan (Bytes.lines_joined _ _) hitemized.not_blank hitemized.lines_eq

mutual

theorem showsList : {list : Element} → IsTightList context.source list →
    tree.element? list.id = some list → ShowsList context tree list
  | _, .mk _ _ _ hnonempty hitems, helement => by
      obtain ⟨-, hchildren⟩ := hlinked.children_of_element? helement
      refine showsList_of_items hlinked hnonempty helement ?_
      intro item hitem
      exact showsItem (hitems item hitem) (hchildren item hitem)

theorem showsItem : {item : Element} → IsTightItem context.source item →
    tree.element? item.id = some item → ShowsItem context tree item
  | _, .text _ htight, helement => showsItem_of_text hlinked htight helement
  | _, .nesting _ htight hlist, helement => by
      obtain ⟨-, hchildren⟩ := hlinked.children_of_element? helement
      have hshown := showsList hlist (hchildren _ (by simp [Element.children]))
      cases hlist with
      | mk id ordered start _ _ => exact showsItem_of_nesting hlinked htight helement rfl hshown

end

end

/-- A document of one list ends as a list does that stands in no item. -/
theorem outcome_body (context : Context) {tree : Tree} (hgrown : tree.Grown)
    (hdocument : tree.root.node = .document) {list : Element}
    (hroot : tree.root.children = [list]) {ordered : Bool} {start : Nat}
    (hlist : list.node = .list ordered start) :
    ((standard context).walk Place.root tree.root).outcome =
      ((standard context).content (tree.place list.id) list).outcome.followedBy
        (.all [Bytes.newline, Bytes.newline]) := by
  have hlinked := hgrown.linked
  have helement := hlinked.element?_root
  obtain ⟨hnode, -⟩ := hlinked.eq_of_element? helement
  obtain ⟨hids, -⟩ := hlinked.children_of_element? helement
  rw [hroot] at hids
  have hsplit : tree.children Tree.rootId = [] ++ list.id :: [] := hids
  have hparent : ((tree.place list.id).parent?.any (·.kind == .listItem)) = false := by
    rw [hlinked.place_of_split hsplit hnode, hdocument]
    rfl
  rw [outcome_walk_document context _ hdocument, ← hgrown.place_root, content_eq _ hlinked helement,
    hroot, List.map_singleton, Layout.concat, Layout.outcome_append, outcome_walk_list _ _ hlist,
    hparent]
  simp [Layout.concat, Layout.blankLine]

end Renderer

/-- The lines end where the text does, so the newlines after it are all there is to trim. -/
theorem Itemized.rdropWhile_eq {renderer : Renderer} {tree : Tree} {items : List Element}
    {indent : Nat} {body : Bytes} (hitemized : Itemized renderer tree items indent body) :
    (body ++ [Bytes.newline, Bytes.newline]).rdropWhile (· == Bytes.newline) = body := by
  have htrim : (body ++ [Bytes.newline] ++ [Bytes.newline]).rdropWhile (· == Bytes.newline) =
      body.rdropWhile (· == Bytes.newline) := by
    rw [List.rdropWhile_concat_pos _ _ _ rfl, List.rdropWhile_concat_pos _ _ _ rfl]
  rw [List.append_cons, htrim, List.rdropWhile_eq_self_iff]
  intro hnonempty hlast
  obtain ⟨before, rfl⟩ : ∃ before, body = before ++ [Bytes.newline] :=
    ⟨body.dropLast, by rw [← eq_of_beq hlast, List.dropLast_append_getLast]⟩
  have hlines := Bytes.lines_joined before []
  rw [List.append_nil] at hlines
  have hblank : [Bytes.newline] ∈ Bytes.lines (before ++ [Bytes.newline] ++ [Bytes.newline]) := by
    rw [hlines]
    exact List.mem_append_right _ (List.mem_singleton_self _)
  cases hitemized.not_blank _ hblank

theorem Renderer.exists_itemLines_eq (renderer : Renderer) (tree : Tree) (item : Element) :
    ∃ text rest, renderer.itemLines tree item =
      (Layer.spaces (indentOf tree item.id) ++ Block.itemMarker (tree.place item.id) ++ text) ::
        rest := by
  obtain ⟨first, rest, hlines⟩ := List.exists_cons_of_ne_nil
    (Bytes.lines_concat_ne_nil (renderer.itemText tree item))
  rw [itemLines, hlines, hang, List.map_cons, ← List.append_assoc]
  exact ⟨_, _, rfl⟩

/-- A document of one tight list has no blank line. It consists of the lines of the items, in order
of the tree, whatever is done about line breaks; each item starts a line with its marker, indented
by the markers of all items around it. -/
theorem Formatter.tight_list_stays_tight (options : Options) (formatCode : CodeFormatter)
    (source : Source) {tree : Tree} (hgrown : tree.Grown) (hdocument : tree.root.node = .document)
    {list : Element} (hroot : tree.root.children = [list]) (htight : IsTightList source list) :
    let formatter := fun hardWraps : Bool =>
      ({ options := { options with hardWraps }, formatCode } : Formatter)
    let lines := (({ options, formatCode } : Formatter).renderer source).itemLines tree
    ∃ output, (∀ hardWraps, (formatter hardWraps).render none source tree = .ok output) ∧
      (∀ line ∈ Bytes.lines output, line.isBlankLine = false) ∧
      Bytes.lines output = tree.root.items.flatMap lines ∧
      ∀ item ∈ tree.root.items, ∃ text rest, lines item =
        (Layer.spaces ((tree.ancestors item.id).map (markerWidth tree)).sum ++
          Block.itemMarker (tree.place item.id) ++ text) :: rest := by
  intro formatter lines
  let context : Context := { source, options, formatCode }
  have hlinked := hgrown.linked
  have helement := hlinked.element?_root
  obtain ⟨hnode, -⟩ := hlinked.eq_of_element? helement
  obtain ⟨hids, hchildren⟩ := hlinked.children_of_element? helement
  rw [hroot] at hids hchildren
  obtain ⟨body, hbody, hitemized⟩ : Renderer.ShowsList context tree list :=
    Renderer.showsList hlinked htight (hchildren list (List.mem_singleton_self _))
  obtain ⟨ordered, start, hlist⟩ : ∃ ordered start, list.node = .list ordered start := by
    cases htight with
    | mk id ordered start _ _ => exact ⟨ordered, start, rfl⟩
  have hindent : indentOf tree list.id = 0 := by
    have hparent : tree.parentOf list.id = some Tree.rootId := by
      rw [← hlinked.mem_children, hids]
      exact List.mem_singleton_self _
    have hwidth : markerWidth tree Tree.rootId = 0 := by
      rw [markerWidth, if_neg (by simp [hnode, hdocument])]
    rw [Renderer.indentOf_child hlinked hparent, hwidth, indentOf, hlinked.ancestors_root]
    rfl
  have hitems : tree.root.items = list.items := by
    rw [Element.items_eq, hroot, List.flatMap_singleton, Element.kind, hdocument]
    rfl
  refine ⟨body ++ [Bytes.newline], fun hardWraps => ?_, hitemized.not_blank, ?_, ?_⟩
  · have houtcome : ((formatter hardWraps).body source tree).outcome =
        .all (body ++ [Bytes.newline, Bytes.newline]) := by
      have hwhole :=
        Renderer.outcome_body (context.rewrapped hardWraps) hgrown hdocument hroot hlist
      rw [hbody] at hwhole
      exact hwhole
    rw [Formatter.render_eq, houtcome]
    simp [FrontMatter.encoded, Written.all, hitemized.rdropWhile_eq]
  · have hlines := hitemized.lines_eq
    rw [hindent] at hlines
    rw [hitems]
    exact (List.map_id _).symm.trans hlines
  · intro item _
    exact Renderer.exists_itemLines_eq _ tree item

/-- Two numbered items, the first of two lines and with a list of its own. -/
def numberedSteps : Tree :=
  (((((((((((Tree.new.appended Tree.rootId (.list true 1)).appended 1 .listItem).appended 2
    .textBlock).appended 3 (.text ⟨0, 1⟩ false true false)).appended 3 (.plainText ⟨1, 2⟩)).appended
    2 (.list false 1)).appended 6 .listItem).appended 7 .textBlock).appended 8
    (.plainText ⟨2, 3⟩)).appended 1 .listItem).appended 10 .textBlock).appended 11
    (.plainText ⟨3, 4⟩)

theorem numberedSteps_grown : numberedSteps.Grown := by
  have hgrow (tree : Tree) (parent : NodeId) (node : Node) (hgrown : tree.Grown)
      (hparent : parent < tree.size) : (tree.appended parent node).Grown :=
    hgrown.append (Tree.append?_of_lt hparent node)
  unfold numberedSteps
  iterate 12 refine hgrow _ _ _ ?_ (by decide)
  exact .new

def stepText : Element :=
  .mk 3 .textBlock [.mk 4 (.text ⟨0, 1⟩ false true false) [], .mk 5 (.plainText ⟨1, 2⟩) []]

def stepLine (id : NodeId) (start : Nat) : Element :=
  .mk id .textBlock [.mk (id + 1) (.plainText ⟨start, start + 1⟩) []]

def stepList : Element :=
  .mk 1 (.list true 1)
    [.mk 2 .listItem [stepText, .mk 6 (.list false 1) [.mk 7 .listItem [stepLine 8 2]]],
      .mk 10 .listItem [stepLine 11 3]]

theorem isTightInline_text {source : Source} (id : NodeId) {segment : Segment} {soft : Bool}
    (hline : Bytes.newline ∉ segment.value source)
    (hshown : (segment.value source).isBlankLine = false) :
    IsTightInline source (.mk id (.text segment false soft false) []) where
  isInline := rfl
  newline_not_mem := by simpa [Element.node, Node.payload] using hline
  not_blank := by
    rintro _ _ _ _ ⟨⟩
    exact hshown
  level := by rintro _ ⟨⟩
  leaf := fun _ => rfl

theorem stepLine_isTight {source : Source} (id : NodeId) {start : Nat}
    (hline : Bytes.newline ∉ (Segment.mk start (start + 1)).value source)
    (hshown : ((Segment.mk start (start + 1)).value source).isBlankLine = false) :
    IsTightText source (stepLine id start) where
  node_eq := rfl
  isTight := List.forall_mem_singleton.mpr (isTightInline_text _ hline hshown)
  unbroken := by
    rintro _ ⟨⟩
    rfl

theorem stepList_isTight : IsTightList #[97, 98, 99, 100] stepList := by
  have htext : IsTightText #[97, 98, 99, 100] stepText := by
    refine ⟨rfl, ?_, ?_⟩
    · refine List.forall_mem_cons.mpr ⟨?_, List.forall_mem_singleton.mpr ?_⟩
      · exact isTightInline_text 4 (by decide +kernel) (by decide +kernel)
      · exact isTightInline_text 5 (by decide +kernel) (by decide +kernel)
    · rintro _ ⟨⟩
      rfl
  have hnested : IsTightList #[97, 98, 99, 100]
      (.mk 6 (.list false 1) [.mk 7 .listItem [stepLine 8 2]]) := by
    refine .mk 6 false 1 (List.cons_ne_nil _ _) (List.forall_mem_singleton.mpr ?_)
    exact .text 7 (stepLine_isTight 8 (by decide +kernel) (by decide +kernel))
  refine .mk 1 true 1 (List.cons_ne_nil _ _) (List.forall_mem_cons.mpr ⟨?_, ?_⟩)
  · exact .nesting 2 htext hnested
  · exact List.forall_mem_singleton.mpr
      (.text 10 (stepLine_isTight 11 (by decide +kernel) (by decide +kernel)))

theorem Formatter.numberedSteps_stay_tight :
    let formatter := fun hardWraps : Bool => ({ options := { hardWraps } } : Formatter)
    let output := Bytes.ofText "1. a\n   b\n   - c\n2. d\n"
    numberedSteps.Grown ∧ numberedSteps.root.node = .document ∧
      numberedSteps.root.children = [stepList] ∧ IsTightList #[97, 98, 99, 100] stepList ∧
      (∀ hardWraps, (formatter hardWraps).render none #[97, 98, 99, 100] numberedSteps =
        .ok output) ∧
      (∀ line ∈ Bytes.lines output, line.isBlankLine = false) ∧
      Bytes.lines output = numberedSteps.root.items.flatMap
        (((formatter false).renderer #[97, 98, 99, 100]).itemLines numberedSteps) := by
  intro formatter output
  have hchildren : numberedSteps.root.children = [stepList] := rfl
  have hrender : (formatter false).render none #[97, 98, 99, 100] numberedSteps = .ok output := by
    cbv
  obtain ⟨written, hwritten, hlines, hitems, -⟩ := Formatter.tight_list_stays_tight {} .none
    #[97, 98, 99, 100] numberedSteps_grown rfl hchildren stepList_isTight
  obtain rfl : output = written := Except.ok.inj (hrender.symm.trans (hwritten false))
  exact ⟨numberedSteps_grown, rfl, hchildren, stepList_isTight, hwritten, hlines, hitems⟩

end Render

end CanonicalMarkdown
