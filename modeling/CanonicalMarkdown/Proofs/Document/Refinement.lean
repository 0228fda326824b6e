import CanonicalMarkdown.Proofs.Document.Item
import CanonicalMarkdown.Proofs.Text.Run

namespace CanonicalMarkdown.Document

namespace Builder

/-! An escape is two bytes of the source: the backslash and the character after it. -/

theorem take_two_drop_eq_iff (source : Source) (start : Nat) (first second : UInt8) :
    (source.toList.drop start).take 2 = [first, second] ↔
      source[start]? = some first ∧ source[start + 1]? = some second := by
  rw [← Array.getElem?_toList, ← Array.getElem?_toList, ← List.head?_drop, ← List.getElem?_drop]
  rcases source.toList.drop start with _ | ⟨byte, _ | ⟨next, rest⟩⟩ <;> simp

theorem textSegment_eq (source : Source) (text : String) (range : Segment) :
    textSegment source text range = Leaf.textRange source text range := by
  unfold textSegment isEscaped Leaf.textRange
  cases (Bytes.ofText text).head? with
  | none => rfl
  | some byte =>
      rcases hstart : range.start with _ | start
      · simp
      · simp only [take_two_drop_eq_iff, Nat.add_sub_cancel, Nat.succ_pos, Bool.and_eq_true,
          beq_iff_eq, decide_true, true_and]
        congr 1
        apply propext
        tauto

/-! Every kind of markup. -/

theorem event_translates {builder : Builder} {base : Tree} {parent : NodeId} {shapes : List Shape}
    (hsite : Site builder base parent shapes) (leaf : Leaf) (range : Segment)
    (hadmits : builder.Admits (leaf.part builder.source range)) :
    builder.event leaf.event range = .ok (builder.replaced
      (base.graftAll parent ((leaf.part builder.source range).addTo shapes)) builder.metadata) := by
  cases leaf with
  | text content =>
      rw [Leaf.event, event, text, hsite.target_eq, Leaf.part, ← textSegment_eq]
      exact hsite.addInline_eq (hadmits.plain rfl) _
  | code content => exact hsite.codeSpan_eq (hadmits.plain rfl) content
  | html content | inlineHtml content =>
      rw [Leaf.event, event, html, hsite.target_eq]
      exact hsite.addInline_eq (hadmits.plain rfl) _
  | softBreak => exact hsite.lineBreak_eq (hadmits.plain rfl) false range
  | hardBreak => exact hsite.lineBreak_eq (hadmits.plain rfl) true range
  | rule =>
      rw [Leaf.event, event, rule, hsite.target_eq, hadmits.closed rfl]
      exact hsite.addBlock_eq _
  | footnoteReference | inlineMath | displayMath | taskMarker =>
      rw [Leaf.event, event, raw, hsite.target_eq]
      exact hsite.addInline_eq (hadmits.plain rfl) _

theorem translates {markup : Markup} (hsupported : markup.Supported) : Translates markup := by
  induction markup using Markup.induct with
  | leaf event range =>
      intro builder base parent shapes hsite hadmits
      rw [Markup.events, events_singleton]
      exact event_translates hsite event range hadmits
  | span tag opening content closing ih =>
      intro builder base parent shapes hsite hadmits
      have hcontent : ∀ markup ∈ content, Translates markup :=
        fun markup hmarkup => ih markup hmarkup (hsupported.of_mem hmarkup)
      have htag := hsupported.tag
      cases tag with
      | paragraph | heading | blockquote | list =>
          have hclosed := hadmits.closed rfl
          rw [events_openBlock hsite _ _ _ hclosed rfl rfl, hsite.openBlock_eq, ok_bind,
            events_inside hsite hcontent Kind.noConfusion]
          rfl
      | item =>
          have hclosed := hadmits.closed rfl
          have hitem := hsite.isInItem_inside .listItem
          have hrun := events_item (hsite.inside .listItem (.node builder.tree.size) rfl) hitem rfl
            hcontent fun markup hmarkup => hsupported.of_mem hmarkup
          rw [events_openBlock hsite _ _ _ hclosed rfl rfl, hsite.openBlock_eq, ok_bind]
          rw [List.nil_append, hsite.graft_eq] at hrun
          exact stop_inside hrun
      | indentedCode =>
          rw [events_lines hsite _ _ _ (hadmits.closed rfl) .codeBlock rfl rfl rfl rfl fun _ => rfl,
            hsite.addBlock_eq]
          rfl
      | fencedCode info =>
          have hclosed := hadmits.closed rfl
          rw [events_lines hsite _ _ _ hclosed (.fencedCodeBlock (Text.firstWord? info)) rfl rfl rfl
            rfl fun _ => rfl, hsite.addBlock_eq]
          rfl
      | htmlBlock =>
          rw [events_lines hsite _ _ _ (hadmits.closed rfl) (.htmlBlock · none) rfl rfl rfl rfl
            fun _ => rfl, hsite.addBlock_eq]
          rfl
      | frontMatter =>
          have hpart : Part.addTo shapes (.block []) = shapes := shapes.append_nil
          rw [events_frontMatter hsite _ _ _ (hadmits.closed rfl), hsite.tree_eq,
            ← metadataAfter_singleton builder.metadata, Markup.part, Tag.part, hpart]
          rfl
      | emphasis | strong | strikethrough =>
          have hitem := hadmits.plain rfl
          rw [events_openInline hsite _ _ _ rfl fun _ => rfl, hsite.openInline_eq hitem, ok_bind,
            events_inside hsite hcontent Kind.noConfusion]
          rfl
      | link type destination title =>
          have hitem := hadmits.plain (Tag.isBlock_part htag _ (Markup.leavesOfAll content))
          cases htype : type.isAutomatic with
          | true =>
              rw [events_autoLink hsite _ _ _ htype, hsite.addInline_eq hitem]
              simp only [Markup.frontMatters, Markup.part, Tag.isCapturing, Tag.part, htype]
              rfl
          | false =>
              have hlink := openTag_link htype destination title
              rw [events_openInline hsite _ _ _ rfl hlink, hsite.openInline_eq hitem, ok_bind,
                events_inside hsite hcontent Kind.noConfusion]
              simp only [Markup.frontMatters, Markup.part, Tag.isCapturing, Tag.part, htype]
              rfl
      | image destination title =>
          rw [events_image hsite, hsite.addInline_eq (hadmits.plain rfl)]
          rfl
      | footnoteDefinition | table | tableHead | tableRow | tableCell | definitionList
      | definitionTitle | definitionDetail | superscript | subscript => cases htag

end Builder

theorem Parsed.ofEvents_forest (source : Source) (forest : List Markup)
    (hsupported : ∀ markup ∈ forest, markup.Supported) :
    Parsed.ofEvents source (Markup.eventsOfAll forest) =
      (metadataAfter none (Markup.frontMattersOfAll forest)).map
        (Parsed.mk (Tree.ofShapes (Part.joined (Markup.partsOfAll source forest)))) := by
  have hsite : Builder.Site { source } Tree.new Tree.rootId [] :=
    ⟨rfl, by decide, rfl, rfl, rfl, rfl, rfl, rfl⟩
  have hforest : ∀ markup ∈ forest, Builder.Translates markup :=
    fun markup hmarkup => Builder.translates (hsupported markup hmarkup)
  have hrun := Builder.events_all hforest hsite fun _ _ => ⟨fun _ => rfl, fun _ => rfl⟩
  rw [Parsed.ofEvents, hrun]
  cases metadataAfter none (Markup.frontMattersOfAll forest) with
  | error cause => rfl
  | ok metadata => rfl

/-- Reading a well-nested stream gives the document that the translation of its markup describes. -/
theorem Parsed.ofEvents_eq_translation (source : Source) {stream : EventStream}
    (hnested : WellNested stream)
    (hsupported : ∀ tag range, (Event.start tag, range) ∈ stream → tag.isSupported = true) :
    (∃ forest, Markup.eventsOfAll forest = stream) ∧
      ∀ forest, Markup.eventsOfAll forest = stream →
        Parsed.ofEvents source stream =
            (metadataAfter none (Markup.frontMattersOfAll forest)).map
              (Parsed.mk (Tree.ofShapes (Part.joined (Markup.partsOfAll source forest)))) ∧
          (Tree.ofShapes (Part.joined (Markup.partsOfAll source forest))).root.shape =
            .mk .document (Part.joined (Markup.partsOfAll source forest)) := by
  refine ⟨hnested.exists_forest, ?_⟩
  rintro forest rfl
  refine ⟨Parsed.ofEvents_forest source forest ?_, Tree.shape_root_ofShapes _⟩
  intro markup hmarkup tag range hstart
  exact hsupported tag range (Markup.mem_eventsOfAll hmarkup hstart)

/-- `- \*`, `b`, `***` and `d` on lines of their own: an item whose text a rule interrupts. After it
stands fenced code with two words beside the fence. -/
def interruptedItem : List Markup :=
  [.span (.list none) ⟨0, 19⟩
    [.span .item ⟨0, 19⟩
      [.leaf (.text "*") ⟨3, 4⟩, .leaf .softBreak ⟨4, 5⟩, .leaf (.text "b") ⟨7, 8⟩,
        .leaf .rule ⟨11, 15⟩, .leaf (.text "d") ⟨17, 18⟩] ⟨0, 19⟩] ⟨0, 19⟩,
    .span (.fencedCode "rust x") ⟨19, 35⟩ [.leaf (.text "f\n") ⟨29, 31⟩] ⟨19, 35⟩]

def interruptedItemSource : Source :=
  "- \\*\n  b\n  ***\n  d\n```rust x\nf\n```\n".toUTF8.data

theorem interruptedItem_supported (tag : Tag) (range : Segment)
    (hstart : (Event.start tag, range) ∈ Markup.eventsOfAll interruptedItem) :
    tag.isSupported = true := by
  simp [interruptedItem, Markup.eventsOfAll, Markup.events, Leaf.event] at hstart
  rcases hstart with ⟨rfl, -⟩ | ⟨rfl, -⟩ | ⟨rfl, -⟩ <;> rfl

theorem firstWord?_rust : Text.firstWord? "rust x" = some "rust" := by
  have htext : "rust x".toList = ['r', 'u', 's', 't', ' ', 'x'] := by decide +kernel
  have hword : "rust".toList = ['r', 'u', 's', 't'] := by decide +kernel
  rw [Text.firstWord?_eq_some_iff, htext, hword]
  exact ⟨[], _, [' ', 'x'], ⟨rfl, by simp, by simp [Text.isBlank]⟩,
    ⟨rfl, by simp [Text.isBlank], by simp [Text.isBlank]⟩, List.cons_ne_nil _ _⟩

theorem interruptedItem_parts :
    Part.joined (Markup.partsOfAll interruptedItemSource interruptedItem) =
      [.mk (.list false 1) [.mk .listItem
        [.mk .textBlock [.leaf (.text ⟨2, 4⟩ false true false), .leaf (.plainText ⟨7, 8⟩)],
          .leaf .thematicBreak, .mk .textBlock [.leaf (.plainText ⟨17, 18⟩)]]],
        .leaf (.fencedCodeBlock (some "rust") [⟨29, 31⟩])] := by
  simp only [interruptedItem, Markup.partsOfAll, Markup.part, Leaf.part, Tag.part, Part.itemised,
    List.dropWhile, Part.isBlock, Bool.not_false, Bool.not_true, firstWord?_rust]
  rfl

theorem interruptedItem_translated :
    WellNested (Markup.eventsOfAll interruptedItem) ∧
      ∃ tree, Parsed.ofEvents interruptedItemSource (Markup.eventsOfAll interruptedItem) =
          .ok ⟨tree, none⟩ ∧
        tree.root.shape = .mk .document [.mk (.list false 1) [.mk .listItem
          [.mk .textBlock [.leaf (.text ⟨2, 4⟩ false true false), .leaf (.plainText ⟨7, 8⟩)],
            .leaf .thematicBreak, .mk .textBlock [.leaf (.plainText ⟨17, 18⟩)]]],
          .leaf (.fencedCodeBlock (some "rust") [⟨29, 31⟩])] := by
  have hnested : WellNested (Markup.eventsOfAll interruptedItem) := by rfl
  obtain ⟨hparsed, hshape⟩ := (Parsed.ofEvents_eq_translation interruptedItemSource hnested
    interruptedItem_supported).2 interruptedItem rfl
  rw [interruptedItem_parts] at hparsed hshape
  exact ⟨hnested, _, hparsed, hshape⟩

end CanonicalMarkdown.Document
