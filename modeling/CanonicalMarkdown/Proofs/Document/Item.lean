import CanonicalMarkdown.Proofs.Document.Translation

namespace CanonicalMarkdown.Document

theorem Tag.isBlock_part {tag : Tag} (hsupported : tag.isSupported = true) (parts : List Part)
    (leaves : List (Leaf × Segment)) : (tag.part parts leaves).isBlock = tag.isBlock := by
  cases tag with
  | link type destination title =>
      simp only [Tag.part]
      split <;> rfl
  | footnoteDefinition | table | tableHead | tableRow | tableCell | definitionList
  | definitionTitle | definitionDetail | superscript | subscript => cases hsupported
  | _ => rfl

theorem Part.addTo_append_itemised {part : Part} (hpart : part.isBlock = true)
    (shapes : List Shape) (rest : List Part) :
    part.addTo shapes ++ itemised rest = shapes ++ itemised (part :: rest) := by
  cases part with
  | block added => rw [itemised, addTo, List.append_assoc]
  | inline | lineBreak => cases hpart

theorem Part.itemised_inline {part : Part} (hpart : part.isBlock = false) (rest : List Part) :
    itemised (part :: rest) =
      .mk .textBlock (joined (part :: rest.takeWhile (!·.isBlock))) ::
        itemised (rest.dropWhile (!·.isBlock)) := by
  cases part with
  | block => cases hpart
  | inline | lineBreak =>
      rw [itemised]
      intro _ heq
      cases heq

namespace Markup

/-- The content of a list item is made of blocks and of runs that reach up to a block or the end. -/
theorem induct_runs (source : Source) {motive : List Markup → Prop} (nil : motive [])
    (block : ∀ markup rest, (markup.part source).isBlock = true → motive rest →
      motive (markup :: rest))
    (run : ∀ markup run tail, (∀ other ∈ markup :: run, (other.part source).isBlock = false) →
      (∀ other ∈ tail.head?, (other.part source).isBlock = true) → motive tail →
        motive (markup :: run ++ tail))
    (content : List Markup) : motive content := by
  induction hlength : content.length using Nat.strongRecOn generalizing content with
  | ind length ih =>
      cases content with
      | nil => exact nil
      | cons markup rest =>
          have hlt : rest.length < length := hlength ▸ Nat.lt_succ_self _
          cases hmarkup : (markup.part source).isBlock with
          | true => exact block markup rest hmarkup (ih _ hlt rest rfl)
          | false =>
              have htail : (rest.dropWhile fun other => !(other.part source).isBlock).length <
                  length := Nat.lt_of_le_of_lt (List.dropWhile_suffix _).length_le hlt
              rw [← rest.takeWhile_append_dropWhile
                (p := fun other => !(other.part source).isBlock)]
              refine run markup _ _ ?_ ?_ (ih _ htail _ rfl)
              · intro other hother
                rcases List.mem_cons.mp hother with rfl | hother
                · exact hmarkup
                · simpa using List.all_eq_true.mp List.all_takeWhile other hother
              · intro other hother
                have hhead := List.head?_dropWhile_not
                  (fun other => !(other.part source).isBlock) rest
                rw [Option.mem_def.mp hother] at hhead
                simpa using hhead

theorem itemised_run (source : Source) {markup : Markup} {run tail : List Markup}
    (hrun : ∀ other ∈ markup :: run, (other.part source).isBlock = false)
    (htail : ∀ other ∈ tail.head?, (other.part source).isBlock = true) :
    Part.itemised (partsOfAll source (markup :: run ++ tail)) =
      .mk .textBlock (Part.joined (partsOfAll source (markup :: run))) ::
        Part.itemised (partsOfAll source tail) := by
  have hinline : ∀ added ∈ run.map (part source), (!added.isBlock) = true := by
    intro added hadded
    obtain ⟨other, hother, rfl⟩ := List.mem_map.mp hadded
    simp [hrun other (List.mem_cons_of_mem markup hother)]
  have htake : (tail.map (part source)).takeWhile (!·.isBlock) = [] ∧
      (tail.map (part source)).dropWhile (!·.isBlock) = tail.map (part source) := by
    cases tail with
    | nil => exact ⟨rfl, rfl⟩
    | cons block tail => simp [htail block (by simp)]
  simp only [partsOfAll_eq, List.cons_append, List.map_cons, List.map_append]
  rw [Part.itemised_inline (hrun markup (by simp)), List.takeWhile_append_of_pos hinline,
    List.dropWhile_append_of_pos hinline, htake.1, htake.2, List.append_nil]

end Markup

namespace Builder

/-! In a list item the first inline content opens a text block and the next block closes it. -/

section

variable {builder opened : Builder} {base within : Tree} {parent block : NodeId}
  {shapes added : List Shape} (hsite : Site builder base parent shapes)
  (hopened : Site opened within block added) (hsource : opened.source = builder.source)
  (hparent : builder.inlineParent = .ok (block, opened)) (hitem : opened.isInItem = false)
include hopened hparent hitem

theorem appendInline_opened (node : Node) :
    builder.appendInline node = opened.appendInline node := by
  rw [appendInline, hparent, appendInline, hopened.inlineParent_eq hitem]

theorem addInline_opened (node : Node) : builder.addInline node = opened.addInline node := by
  rw [addInline, appendInline_opened hopened hparent hitem, addInline]

theorem openInline_opened (node : Node) : builder.openInline node = opened.openInline node := by
  rw [openInline, appendInline_opened hopened hparent hitem, openInline]

include hsite hsource

theorem event_opened {leaf : Leaf} {range : Segment}
    (hinline : (leaf.part builder.source range).isBlock = false) :
    builder.event leaf.event range = opened.event leaf.event range := by
  have hadd := addInline_opened hopened hparent hitem
  have happend := appendInline_opened hopened hparent hitem
  have hagain := hopened.inlineParent_eq hitem
  cases leaf with
  | rule => cases hinline
  | _ =>
      simp only [Leaf.event, event, text, codeSpan, html, lineBreak, raw, hsite.target_eq,
        hopened.target_eq, hsource, hadd, happend, hparent, hagain, beq_self_eq_true, if_true]

theorem events_opened {markup : Markup} (hsupported : markup.Supported)
    (hinline : (markup.part builder.source).isBlock = false) :
    builder.events markup.events = opened.events markup.events := by
  have hadd := addInline_opened hopened hparent hitem
  have hopen := openInline_opened hopened hparent hitem
  cases markup with
  | leaf event range =>
      rw [Markup.events, events_singleton, events_singleton]
      exact event_opened hsite hopened hsource hparent hitem hinline
  | span tag opening content closing =>
      have htag := hsupported.tag
      cases tag with
      | emphasis | strong | strikethrough =>
          rw [events_openInline hsite _ _ _ rfl fun _ => rfl,
            events_openInline hopened _ _ _ rfl fun _ => rfl, hopen]
      | link type destination title =>
          cases htype : type.isAutomatic with
          | true =>
              rw [events_autoLink hsite _ _ _ htype, events_autoLink hopened _ _ _ htype, hadd]
          | false =>
              have hlink := openTag_link htype destination title
              rw [events_openInline hsite _ _ _ rfl hlink,
                events_openInline hopened _ _ _ rfl hlink, hopen]
      | image destination title => rw [events_image hsite, events_image hopened, hadd]
      | paragraph | heading | blockquote | indentedCode | fencedCode | htmlBlock | list | item
      | frontMatter => cases hinline
      | footnoteDefinition | table | tableHead | tableRow | tableCell | definitionList
      | definitionTitle | definitionDetail | superscript | subscript => cases htag

end

theorem events_closed {builder closed : Builder} {markup : Markup}
    (hclose : builder.closeTextBlock = closed) (htarget : builder.target = .tree)
    (hclosed : closed.target = .tree) (hagain : closed.closeTextBlock = closed)
    (hsupported : markup.Supported) (hblock : (markup.part builder.source).isBlock = true) :
    builder.events markup.events = closed.events markup.events := by
  cases markup with
  | leaf event range =>
      rw [Markup.events, events_singleton, events_singleton]
      cases event with
      | rule =>
          simp only [Leaf.event, Builder.event, rule, htarget, hclosed, hclose, hagain,
            beq_self_eq_true, if_true]
      | _ => cases hblock
  | span tag opening content closing =>
      rw [Markup.part, Tag.isBlock_part hsupported.tag] at hblock
      rw [events_span, events_span, start_of_tree htarget, start_of_tree hclosed, if_pos hblock,
        if_pos hblock, hclose, hagain]

section

variable {builder : Builder} {base : Tree} {parent : NodeId} {shapes : List Shape}
  (hsite : Site builder base parent shapes) (hitem : builder.isInItem = true)
include hsite hitem

/-- What follows a run of inline content in a list item finds its text block closed. -/
theorem events_after_run {rest : List Markup} (hsupported : ∀ markup ∈ rest, markup.Supported)
    (hblock : ∀ markup ∈ rest.head?, (markup.part builder.source).isBlock = true)
    (node : Node) (block : NodeId) (tree : Tree) (metadata : Option Yaml.Value) :
    (((builder.inside node (.textBlock block)).replaced tree metadata).events
        (Markup.eventsOfAll rest)).map closeTextBlock =
      ((builder.replaced tree metadata).events (Markup.eventsOfAll rest)).map closeTextBlock := by
  have hagain : (builder.replaced tree metadata).closeTextBlock =
      builder.replaced tree metadata := by
    rw [closeTextBlock_replaced, closeTextBlock_of_isInItem hitem]
  cases rest with
  | nil => exact congrArg Except.ok hagain.symm
  | cons markup rest =>
      have hclosed : ((builder.inside node (.textBlock block)).replaced tree metadata).events
          markup.events = (builder.replaced tree metadata).events markup.events :=
        events_closed rfl rfl hsite.target_eq hagain (hsupported markup (by simp))
          (hblock markup (by simp))
      rw [Markup.eventsOfAll, events_append, events_append, hclosed]

/-- A run of inline content in a list item fills one text block. -/
theorem events_run {markup : Markup} {run : List Markup}
    (hcontent : ∀ other ∈ markup :: run, Translates other) (hsupported : markup.Supported)
    (hinline : ∀ other ∈ markup :: run, (other.part builder.source).isBlock = false) :
    builder.events (Markup.eventsOfAll (markup :: run)) =
      (metadataAfter builder.metadata (Markup.frontMattersOfAll (markup :: run))).map
        ((builder.inside .textBlock (.textBlock builder.tree.size)).replaced
          (base.graftAll parent (shapes ++ [.mk .textBlock
            (Part.joined (Markup.partsOfAll builder.source (markup :: run)))]))) := by
  -- Once the first piece has opened the block, the block is a node like any other.
  have hinside := hsite.inside .textBlock (.textBlock builder.tree.size) rfl
  have hopened : builder.events markup.events =
      (builder.inside .textBlock (.textBlock builder.tree.size)).events markup.events :=
    events_opened hsite hinside rfl (hsite.inlineParent_inside hitem) rfl hsupported
      (hinline markup (by simp))
  have hadmits : ∀ other ∈ markup :: run,
      (builder.inside .textBlock (.textBlock builder.tree.size)).Admits
        (other.part builder.source) := by
    intro other hother
    refine ⟨fun hblock => ?_, fun _ => rfl⟩
    rw [hinline other hother] at hblock
    cases hblock
  rw [Markup.eventsOfAll, events_append, hopened, ← events_append, ← Markup.eventsOfAll,
    events_all hcontent hinside hadmits, ← hsite.graft_eq]
  rfl

theorem events_item {source : Source} (hsource : builder.source = source) {content : List Markup}
    (hcontent : ∀ markup ∈ content, Translates markup)
    (hsupported : ∀ markup ∈ content, markup.Supported) :
    (builder.events (Markup.eventsOfAll content)).map closeTextBlock =
      (metadataAfter builder.metadata (Markup.frontMattersOfAll content)).map
        (builder.replaced (base.graftAll parent
          (shapes ++ Part.itemised (Markup.partsOfAll source content)))) := by
  induction content using Markup.induct_runs source generalizing builder shapes with
  | nil =>
      rw [Markup.partsOfAll, Part.itemised, List.append_nil]
      have hclosed := closeTextBlock_of_isInItem hitem
      exact congrArg Except.ok (hclosed.trans hsite.replaced_self.symm)
  | block markup rest hblock ih =>
      subst hsource
      have hadmits : builder.Admits (markup.part builder.source) :=
        ⟨fun _ => closeTextBlock_of_isInItem hitem, fun hinline => by
          rw [hblock] at hinline
          cases hinline⟩
      rw [Markup.eventsOfAll, events_append, hcontent markup (by simp) hsite hadmits,
        Markup.frontMattersOfAll, metadataAfter_append, Markup.partsOfAll,
        ← Part.addTo_append_itemised hblock]
      cases metadataAfter builder.metadata markup.frontMatters with
      | error cause => rfl
      | ok metadata =>
          exact ih (hsite.replaced _ metadata)
            ((hsite.isInItem_replaced _ metadata).trans hitem) rfl
            (fun other hother => hcontent other (by simp [hother]))
            (fun other hother => hsupported other (by simp [hother]))
  | run markup run tail hrun htail ih =>
      subst hsource
      have hfirst : ∀ other ∈ markup :: run, Translates other :=
        fun other hother => hcontent other (List.mem_append_left tail hother)
      have hrest : ∀ other ∈ tail, Translates other ∧ other.Supported :=
        fun other hother => ⟨hcontent other (List.mem_append_right _ hother),
          hsupported other (List.mem_append_right _ hother)⟩
      rw [Markup.itemised_run _ hrun htail, List.append_cons, Markup.eventsOfAll_append,
        events_append, events_run hsite hitem hfirst (hsupported markup (by simp)) hrun,
        Markup.frontMattersOfAll_append, metadataAfter_append]
      cases metadataAfter builder.metadata (Markup.frontMattersOfAll (markup :: run)) with
      | error cause => rfl
      | ok metadata =>
          change Except.map closeTextBlock (Builder.events _ _) = _
          rw [events_after_run hsite hitem (fun other hother => (hrest other hother).2) htail]
          exact ih (hsite.replaced _ metadata)
            ((hsite.isInItem_replaced _ metadata).trans hitem) rfl
            (fun other hother => (hrest other hother).1)
            (fun other hother => (hrest other hother).2)

end

end Builder

end CanonicalMarkdown.Document
