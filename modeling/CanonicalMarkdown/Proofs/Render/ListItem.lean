import CanonicalMarkdown.Proofs.Output.Indent
import CanonicalMarkdown.Proofs.Render.Failure
import CanonicalMarkdown.Proofs.Render.Independence
import CanonicalMarkdown.Proofs.Render.Outlook
import CanonicalMarkdown.Proofs.Text.Bytes
import Mathlib

namespace CanonicalMarkdown

open Document Output

/-! The marker of an item has no bytes but digits and its own punctuation. -/

namespace Bytes

theorem not_mem_ofText_toString {byte : UInt8} {c : Char} (hbyte : byte.toNat < 128)
    (hc : c.toNat = byte.toNat) (hdigit : c.isDigit = false) (number : Nat) :
    byte ∉ ofText (toString number) := by
  apply not_mem_ofText hbyte hc
  rw [Nat.toString_eq_repr, Nat.repr_eq_ofList_toDigits, String.toList_ofList]
  intro hmem
  have hfalse := Nat.isDigit_of_mem_toDigits (by decide) (by decide) hmem
  rw [hdigit] at hfalse
  cases hfalse

end Bytes

namespace Render

theorem not_mem_itemMarker {byte : UInt8} {c : Char} (hbyte : byte.toNat < 128)
    (hc : c.toNat = byte.toNat) (hdigit : c.isDigit = false)
    (hmarks : byte ∉ Bytes.ofText ". " ∧ byte ∉ Bytes.ofText "- ") (place : Place) :
    byte ∉ Block.itemMarker place := by
  unfold Block.itemMarker
  split
  · rw [Bytes.ofText_append, List.mem_append, not_or]
    exact ⟨Bytes.not_mem_ofText_toString hbyte hc hdigit _, hmarks.1⟩
  · exact hmarks.2

theorem newline_not_mem_itemMarker (place : Place) :
    Bytes.newline ∉ Block.itemMarker place :=
  not_mem_itemMarker (c := '\n') (by decide) rfl rfl (by decide) place

/-! An item is its marker with its content hung under it. -/

theorem outcome_hung {marker : Bytes} (hmarker : Bytes.newline ∉ marker) (body : Layout) :
    (Block.hung marker body).outcome =
      ⟨body.outcome.result, marker ++ hungLines marker.length body.outcome.state⟩ := by
  have hemit : (Layer.indent marker.length).emit (marker ++ body.outcome.state) =
      marker ++ hungLines marker.length body.outcome.state := by
    rw [← Layer.marked_spaces]
    exact Layer.marked_line _ hmarker _
  rw [Block.hung, Layout.outcome_through, Layout.outcome_append, Layout.outcome_bytes,
    Written.all_followedBy, Written.through, hemit]

namespace Renderer

variable (context : Context)

theorem entering_item (place : Place) {element : Element} (hitem : element.node = .listItem) :
    (standard context).entering place element =
      Block.hung (Block.itemMarker place) ((standard context).content place element) := by
  obtain ⟨id, node, children⟩ := element
  obtain rfl : node = .listItem := hitem
  rfl

/-- What the children of an item write depends on nothing around the item. -/
theorem outcome_content_item (place other : Place) {element twin : Element}
    (hitem : element.node = .listItem) (hshape : element.shape = twin.shape) :
    ((standard context).content place element).outcome =
      ((standard context).content other twin).outcome := by
  obtain ⟨hnode, hshapes⟩ := Element.shape_eq_mk_iff.mp (hshape.trans twin.shape_eq)
  apply Layout.outcome_concat
  rw [parts, parts, ← hnode, hitem]
  exact outcome_walkEach context (Alike.item _ _) [] element.children hshapes fun _ _ _ => rfl

end Renderer

/-! What is laid out in a list hangs in what the list writes. -/

namespace Layout

theorem outcome_eq_all {layout : Layout} (hnone : layout.failure = none) :
    layout.outcome = .all layout.output := by
  rw [failure] at hnone
  rw [output]
  cases houtcome : layout.outcome with
  | mk result data =>
      cases result with
      | ok _ => rfl
      | error error =>
          rw [houtcome] at hnone
          cases hnone

theorem output_visit (node : NodeId) (phase : Phase) (rest : Layout) :
    (visit node phase rest).output = rest.output := rfl

theorem output_append {first : Layout} (hnone : first.failure = none) (second : Layout) :
    (first ++ second).output = first.output ++ second.output := by
  rw [output, outcome_append, outcome_eq_all hnone]
  rfl

theorem output_concat {parts : List Layout} (hparts : ∀ part ∈ parts, part.failure = none) :
    (concat parts).output = parts.flatMap output := by
  induction parts with
  | nil => rfl
  | cons part rest ih =>
      rw [concat, output_append (hparts part (by simp)), List.flatMap_cons,
        ih fun part hpart => hparts part (by simp [hpart])]

end Layout

/-- The width of the marker, for an item. -/
def markerWidth (tree : Tree) (id : NodeId) : Nat :=
  if tree.node? id = some .listItem then (Block.itemMarker (tree.place id)).length else 0

namespace Renderer

variable {context : Context} {tree : Tree} (hlinked : tree.Linked)
include hlinked

theorem hangs_item {id : NodeId} (hnode : tree.node? id = some .listItem)
    (hnone : ((standard context).layoutOf tree id).failure = none) :
    let content := Layout.concat ((tree.children id).map ((standard context).layoutOf tree))
    content.failure = none ∧ Hangs (Block.itemMarker (tree.place id)).length content.output
      ((standard context).layoutOf tree id).output := by
  intro content
  have henter : (standard context).render (tree.place id)
      (.mk id .listItem (tree.elements (tree.children id))) .enter
      ((tree.children id).map ((standard context).layoutOf tree)) =
        .skipChildren (Block.hung (Block.itemMarker (tree.place id)) content) := rfl
  have hhung := outcome_hung (newline_not_mem_itemMarker (tree.place id)) content
  rw [(standard context).layoutOf_eq hlinked hnode, around_of_skipChildren _ henter] at hnone ⊢
  have hfirst : (Block.hung (Block.itemMarker (tree.place id)) content).failure = none := by
    rw [Layout.failure_visit, Layout.failure_append, Option.or_eq_none_iff] at hnone
    exact hnone.1
  refine ⟨?_, ?_⟩
  · rw [Layout.failure, hhung] at hfirst
    exact hfirst
  · have houtput : (Block.hung (Block.itemMarker (tree.place id)) content).output =
        Block.itemMarker (tree.place id) ++
          hungLines (Block.itemMarker (tree.place id)).length content.output :=
      congrArg Outcome.state hhung
    rw [Layout.output_visit, Layout.output_append hfirst, houtput]
    exact ⟨_, _, rfl⟩

theorem hangs_of_descend {id : NodeId} {node : Node} (hnode : tree.node? id = some node)
    (henter : ∀ children parts, (standard context).render (tree.place id)
      (.mk id node children) .enter parts = .descend .done)
    (hnone : ((standard context).layoutOf tree id).failure = none) :
    let content := Layout.concat ((tree.children id).map ((standard context).layoutOf tree))
    content.failure = none ∧
      Hangs 0 content.output ((standard context).layoutOf tree id).output := by
  intro content
  rw [(standard context).layoutOf_eq hlinked hnode, around_of_descend _ (henter _ _),
    Layout.done_append] at hnone ⊢
  have hcontent : content.failure = none := by
    rw [Layout.failure_visit, Layout.failure_append, Option.or_eq_none_iff] at hnone
    exact hnone.1
  refine ⟨hcontent, .of_isInfix ?_⟩
  rw [Layout.output_visit, Layout.output_append hcontent]
  exact List.infix_append' [] _ _

theorem hangs_content {id : NodeId} {node : Node} (hnode : tree.node? id = some node)
    (hkind : node.kind ∈ [Kind.document, .list, .listItem])
    (hnone : ((standard context).layoutOf tree id).failure = none) :
    let content := Layout.concat ((tree.children id).map ((standard context).layoutOf tree))
    content.failure = none ∧
      Hangs (markerWidth tree id) content.output ((standard context).layoutOf tree id).output := by
  cases node with
  | listItem =>
      rw [markerWidth, if_pos hnode]
      exact hangs_item hlinked hnode hnone
  | document | list =>
      rw [markerWidth, if_neg (by simp [hnode])]
      exact hangs_of_descend hlinked hnode (fun _ _ => rfl) hnone
  | _ => simp [Node.kind] at hkind

theorem hangs_child {parent child : NodeId} {node : Node} (hnode : tree.node? parent = some node)
    (hparent : tree.parentOf child = some parent)
    (hkind : node.kind ∈ [Kind.document, .list, .listItem])
    (hnone : ((standard context).layoutOf tree parent).failure = none) :
    ((standard context).layoutOf tree child).failure = none ∧
      Hangs (markerWidth tree parent) ((standard context).layoutOf tree child).output
        ((standard context).layoutOf tree parent).output := by
  obtain ⟨hcontent, hhangs⟩ := hangs_content hlinked hnode hkind hnone
  have hmem : (standard context).layoutOf tree child ∈
      (tree.children parent).map ((standard context).layoutOf tree) :=
    List.mem_map_of_mem (hlinked.mem_children.mpr hparent)
  rw [Layout.failure_concat, List.findSome?_eq_none_iff] at hcontent
  refine ⟨hcontent _ hmem, ?_⟩
  have hinner : Hangs 0 ((standard context).layoutOf tree child).output
      (Layout.concat ((tree.children parent).map ((standard context).layoutOf tree))).output := by
    rw [Layout.output_concat hcontent]
    obtain ⟨left, right, hsplit⟩ := List.append_of_mem hmem
    rw [hsplit, List.flatMap_append, List.flatMap_cons]
    exact .of_isInfix ⟨left.flatMap Layout.output, right.flatMap Layout.output, by simp⟩
  have hboth := hinner.trans hhangs
  rwa [Nat.zero_add] at hboth

/-- What a node in lists writes hangs in the whole by the widths of the markers around it. -/
theorem hangs_root {id : NodeId} (hid : id < tree.size)
    (habove : ∀ above ∈ (tree.place id).ancestors, above.kind ∈ [Kind.document, .list, .listItem])
    (hnone : ((standard context).layoutOf tree Tree.rootId).failure = none) :
    ((standard context).layoutOf tree id).failure = none ∧
      Hangs ((tree.ancestors id).map (markerWidth tree)).sum
        ((standard context).layoutOf tree id).output
        ((standard context).layoutOf tree Tree.rootId).output := by
  revert habove
  refine hlinked.of_root_of_parent (motive := fun id =>
    (∀ above ∈ (tree.place id).ancestors, above.kind ∈ [Kind.document, .list, .listItem]) →
      ((standard context).layoutOf tree id).failure = none ∧
        Hangs ((tree.ancestors id).map (markerWidth tree)).sum
          ((standard context).layoutOf tree id).output
          ((standard context).layoutOf tree Tree.rootId).output) ?_ ?_ hid
  · intro _
    rw [hlinked.ancestors_root]
    exact ⟨hnone, .of_isInfix List.infix_rfl⟩
  · intro id parent hparent ih habove
    obtain ⟨outer, houter⟩ := hlinked.exists_node?_of_parentOf hparent
    rw [hlinked.ancestors_place_child hparent houter] at habove
    obtain ⟨houterNone, houtside⟩ := ih fun above hmem => habove above (by simp [hmem])
    obtain ⟨hinnerNone, hinside⟩ :=
      hangs_child hlinked houter hparent (habove outer (by simp)) houterNone
    refine ⟨hinnerNone, ?_⟩
    rw [hlinked.ancestors_child hparent, List.map_cons, List.sum_cons]
    exact hinside.trans houtside

end Renderer

theorem Formatter.render_eq_ok {formatter : Formatter} {metadata : Option Yaml.Value}
    {source : Source} {tree : Tree} {output : Bytes}
    (hrender : formatter.render metadata source tree = .ok output) :
    (formatter.body source tree).failure = none ∧
      ∃ block, output = block ++
        (formatter.body source tree).output.rdropWhile (· == Bytes.newline) ++ [Bytes.newline] := by
  rw [render_eq] at hrender
  rw [Layout.failure, Layout.output]
  cases hblock : FrontMatter.encoded metadata with
  | error error =>
      rw [hblock] at hrender
      cases hrender
  | ok block =>
      cases hbody : (formatter.body source tree).outcome with
      | mk result body =>
          rw [hblock, hbody] at hrender
          cases result with
          | error error => cases hrender
          | ok _ => exact ⟨rfl, block, (Except.ok.inj hrender).symm⟩

/-- In lists the content of an item reaches the document, but for the newlines at its end. -/
theorem Formatter.hangs_render {options : Options} {formatCode : CodeFormatter} {source : Source}
    {tree : Tree} (hgrown : tree.Grown) {id : NodeId} {element : Element}
    (helement : tree.element? id = some element) (hitem : element.node = .listItem)
    (habove : ∀ above ∈ (tree.place id).ancestors, above.kind ∈ [Kind.document, .list, .listItem])
    {metadata : Option Yaml.Value} {output : Bytes}
    (hrender : ({ options, formatCode } : Formatter).render metadata source tree = .ok output) :
    Hangs ((id :: tree.ancestors id).map (markerWidth tree)).sum
      (((Renderer.standard { source, options, formatCode }).content (tree.place id)
        element).output.rdropWhile (· == Bytes.newline)) output := by
  let renderer := Renderer.standard { source, options, formatCode }
  have hlinked := hgrown.linked
  obtain ⟨hnode, helement⟩ := hlinked.eq_of_element? helement
  rw [hitem] at hnode helement
  obtain ⟨hbody, block, rfl⟩ := Formatter.render_eq_ok hrender
  have hroot : ({ options, formatCode } : Formatter).body source tree =
      renderer.layoutOf tree Tree.rootId := Formatter.body_eq _ _ hgrown
  rw [hroot] at hbody
  obtain ⟨hnone, hwhole⟩ := Renderer.hangs_root hlinked (Tree.lt_of_node? hnode) habove hbody
  obtain ⟨-, hown⟩ := Renderer.hangs_content hlinked hnode (by decide) hnone
  have hcontent : renderer.content (tree.place id) element =
      .concat ((tree.children id).map (renderer.layoutOf tree)) := by
    rw [helement, Renderer.content, Renderer.parts_eq _ hlinked hnode]
  have htrimmed := (hown.trans hwhole).trimmed
  rw [← hcontent, ← hroot] at htrimmed
  exact htrimmed.append _ _

/-- An item is its marker and its content, hung under the marker. The content is laid out the same
wherever the item stands, and in lists it reaches the document hung by its own marker and those of
all items around it. -/
theorem Formatter.item_hangs (options : Options) (formatCode : CodeFormatter) (source : Source) :
    let formatter : Formatter := { options, formatCode }
    let content := fun (tree : Tree) id element =>
      ((formatter.renderer source).content (tree.place id) element).run Buffer.empty
    (∀ (tree other : Tree) id twin element copy, tree.element? id = some element →
      other.element? twin = some copy → element.node = .listItem → element.shape = copy.shape →
        (content tree id element).result = (content other twin copy).result ∧
          Sink.contents (content tree id element).state =
            Sink.contents (content other twin copy).state) ∧
    (∀ (tree : Tree) id element, tree.element? id = some element → element.node = .listItem →
      let marker := Block.itemMarker (tree.place id)
      let entered :=
        ((formatter.renderer source).entering (tree.place id) element).run Buffer.empty
      entered.result = (content tree id element).result ∧
        Sink.contents entered.state =
          marker ++ hungLines marker.length (Sink.contents (content tree id element).state)) ∧
    ∀ tree : Tree, tree.Grown → ∀ id element, tree.element? id = some element →
      element.node = .listItem →
      (∀ above ∈ (tree.place id).ancestors, above.kind ∈ [Kind.document, .list, .listItem]) →
      ∀ metadata output, formatter.render metadata source tree = .ok output →
        let width := ((id :: tree.ancestors id).map (markerWidth tree)).sum
        let text : Bytes :=
          (Sink.contents (content tree id element).state).rdropWhile (· == Bytes.newline)
        Hangs width text output ∧
          ∀ line ∈ text.lines.tail, line ≠ [Bytes.newline] → ∃ before after, output =
            before ++ Bytes.newline :: (List.replicate width Bytes.space ++ line) ++ after := by
  intro formatter content
  let context : Context := { source, options, formatCode }
  have hrenderer : formatter.renderer source = Renderer.standard context := rfl
  refine ⟨?_, ?_, ?_⟩
  · intro tree other id twin element copy _ _ hitem hshape
    have hcontent := Renderer.outcome_content_item context (tree.place id) (other.place twin) hitem
      hshape
    refine ⟨?_, ?_⟩
    · simp only [content, Layout.run_eq, hrenderer, hcontent]
    · simp only [content, Layout.contents_run, Layout.output, hrenderer, hcontent]
  · intro tree id element _ hitem marker entered
    have hentered := outcome_hung (newline_not_mem_itemMarker (tree.place id))
      ((Renderer.standard context).content (tree.place id) element)
    rw [← Renderer.entering_item context (tree.place id) hitem] at hentered
    refine ⟨?_, ?_⟩
    · simp only [entered, content, Layout.run_eq, hrenderer, hentered]
    · simp only [entered, content, marker, Layout.contents_run, Layout.output, hrenderer, hentered]
  · intro tree hgrown id element helement hitem habove metadata output hrender width text
    have hhangs : Hangs width text output := by
      have hreached := Formatter.hangs_render hgrown helement hitem habove hrender
      rwa [← Layout.contents_run] at hreached
    refine ⟨hhangs, ?_⟩
    intro line hline hnonempty
    exact hhangs.exists_line hline hnonempty

/-- An item of four lines in another item. -/
def nestedItem : Tree :=
  ((((((Tree.new.appended Tree.rootId (.list true 1)).appended 1 .listItem).appended 2
    (.string "a")).appended 2 (.list false 1)).appended 4 .listItem).appended 5 .textBlock).appended
    6 (.string "b\nc\n\nd")

theorem nestedItem_grown : nestedItem.Grown :=
  .append (.append (.append (.append (.append (.append (.append .new
    (Tree.append?_of_lt (by decide) _)) (Tree.append?_of_lt (by decide) _))
    (Tree.append?_of_lt (by decide) _)) (Tree.append?_of_lt (by decide) _))
    (Tree.append?_of_lt (by decide) _)) (Tree.append?_of_lt (by decide) _))
    (Tree.append?_of_lt (by decide) _)

/-- The same item in a quotation. -/
def quotedItem : Tree :=
  ((((Tree.new.appended Tree.rootId .blockquote).appended 1 (.list true 7)).appended 2
    .listItem).appended 3 .textBlock).appended 4 (.string "b\nc\n\nd")

theorem Formatter.nestedItem_hangs :
    let formatter : Formatter := {}
    let renderer := formatter.renderer #[]
    let text := Bytes.ofText "b\nc\n\nd"
    let output := Bytes.ofText "1. a\n   - b\n     c\n\n     d\n"
    nestedItem.Grown ∧ formatter.render none #[] nestedItem = .ok output ∧
    ∃ element copy, nestedItem.element? 5 = some element ∧ quotedItem.element? 3 = some copy ∧
      Sink.contents ((renderer.content (nestedItem.place 5) element).run Buffer.empty).state =
        Sink.contents ((renderer.content (quotedItem.place 3) copy).run Buffer.empty).state ∧
      Sink.contents ((renderer.entering (nestedItem.place 5) element).run Buffer.empty).state =
        Bytes.ofText "- " ++ hungLines 2 text ∧
      Hangs 5 text output := by
  let element : Element :=
    .mk 5 .listItem [.mk 6 .textBlock [.mk 7 (.string "b\nc\n\nd") []]]
  let copy : Element := .mk 3 .listItem [.mk 4 .textBlock [.mk 5 (.string "b\nc\n\nd") []]]
  have helement : nestedItem.element? 5 = some element := rfl
  have hcopy : quotedItem.element? 3 = some copy := rfl
  have hcontent : Sink.contents (((({} : Formatter).renderer #[]).content (nestedItem.place 5)
      element).run Buffer.empty).state = Bytes.ofText "b\nc\n\nd" := by decide +kernel
  have hmarker : Block.itemMarker (nestedItem.place 5) = Bytes.ofText "- " := by decide +kernel
  have hwidth : ((5 :: nestedItem.ancestors 5).map (markerWidth nestedItem)).sum = 5 := by
    decide +kernel
  have htext : (Bytes.ofText "b\nc\n\nd").rdropWhile (· == Bytes.newline) =
      Bytes.ofText "b\nc\n\nd" := by decide +kernel
  have hrender : ({} : Formatter).render none #[] nestedItem =
      .ok (Bytes.ofText "1. a\n   - b\n     c\n\n     d\n") := by cbv
  obtain ⟨hfree, henter, hreach⟩ := Formatter.item_hangs {} .none #[]
  obtain ⟨-, hsame⟩ := hfree nestedItem quotedItem 5 3 element copy helement hcopy rfl rfl
  obtain ⟨-, hentered⟩ := henter nestedItem 5 element helement rfl
  obtain ⟨hhangs, -⟩ := hreach nestedItem nestedItem_grown 5 element helement rfl (by decide) none _
    hrender
  rw [hcontent, hmarker] at hentered
  rw [hcontent, hwidth, htext] at hhangs
  exact ⟨nestedItem_grown, hrender, element, copy, helement, hcopy, hsame, hentered, hhangs⟩

end Render

end CanonicalMarkdown
