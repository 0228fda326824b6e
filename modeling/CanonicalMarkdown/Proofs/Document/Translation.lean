import CanonicalMarkdown.Proofs.Document.Site

namespace CanonicalMarkdown.Document

theorem metadataAfter_append (metadata : Option Yaml.Value) (left right : List String) :
    metadataAfter metadata (left ++ right) =
      metadataAfter metadata left >>= fun middle => metadataAfter middle right :=
  List.foldlM_append

theorem metadataAfter_singleton (metadata : Option Yaml.Value) (text : String) :
    metadataAfter metadata [text] = frontMatterValue text := by
  simp [metadataAfter]

namespace Markup

theorem frontMattersOfAll_append (left right : List Markup) :
    frontMattersOfAll (left ++ right) = frontMattersOfAll left ++ frontMattersOfAll right := by
  induction left with
  | nil => rfl
  | cons markup rest ih =>
      rw [List.cons_append, frontMattersOfAll, ih, frontMattersOfAll, List.append_assoc]

theorem partsOfAll_eq (source : Source) (content : List Markup) :
    partsOfAll source content = content.map (part source) := by
  induction content with
  | nil => rfl
  | cons markup rest ih => rw [partsOfAll, ih, List.map_cons]

def Supported (markup : Markup) : Prop :=
  ∀ tag range, (Event.start tag, range) ∈ markup.events → tag.isSupported = true

theorem Supported.tag {tag : Tag} {opening closing : Segment} {content : List Markup}
    (hsupported : (span tag opening content closing).Supported) : tag.isSupported = true :=
  hsupported tag opening (by simp [events])

theorem Supported.of_mem {tag : Tag} {opening closing : Segment} {content : List Markup}
    (hsupported : (span tag opening content closing).Supported) {markup : Markup}
    (hmarkup : markup ∈ content) : markup.Supported := by
  intro inner range hstart
  apply hsupported inner range
  simp [events, mem_eventsOfAll hmarkup hstart]

end Markup

namespace Builder

/-- Whether markup can be added as it stands: a block only where no text block is open, and inline
content only where none has to be opened. -/
structure Admits (builder : Builder) (part : Part) : Prop where
  closed : part.isBlock = true → builder.closeTextBlock = builder
  plain : part.isBlock = false → builder.isInItem = false

/-- Running over the markup adds its part and reads its front matter. -/
def Translates (markup : Markup) : Prop :=
  ∀ ⦃builder : Builder⦄ ⦃base : Tree⦄ ⦃parent : NodeId⦄ ⦃shapes : List Shape⦄,
    Site builder base parent shapes → builder.Admits (markup.part builder.source) →
      builder.events markup.events =
        (metadataAfter builder.metadata markup.frontMatters).map
          (builder.replaced (base.graftAll parent ((markup.part builder.source).addTo shapes)))

section

variable {builder : Builder} {base : Tree} {parent : NodeId} {shapes : List Shape}
  {content : List Markup}

theorem Admits.replaced {part : Part} (hadmits : builder.Admits part)
    (hsite : Site builder base parent shapes) (others : List Shape)
    (metadata : Option Yaml.Value) :
    (builder.replaced (base.graftAll parent others) metadata).Admits part where
  closed hblock := by rw [closeTextBlock_replaced, hadmits.closed hblock]
  plain hinline := by rw [hsite.isInItem_replaced, hadmits.plain hinline]

theorem events_all (hcontent : ∀ markup ∈ content, Translates markup)
    (hsite : Site builder base parent shapes)
    (hadmits : ∀ markup ∈ content, builder.Admits (markup.part builder.source)) :
    builder.events (Markup.eventsOfAll content) =
      (metadataAfter builder.metadata (Markup.frontMattersOfAll content)).map
        (builder.replaced (base.graftAll parent
          ((Markup.partsOfAll builder.source content).foldl Part.addTo shapes))) := by
  induction content generalizing builder shapes with
  | nil => exact congrArg Except.ok hsite.replaced_self.symm
  | cons markup rest ih =>
      rw [Markup.eventsOfAll, events_append,
        hcontent markup (by simp) hsite (hadmits markup (by simp)), Markup.frontMattersOfAll,
        metadataAfter_append]
      cases metadataAfter builder.metadata markup.frontMatters with
      | error cause => rfl
      | ok metadata =>
          apply ih (fun markup hmarkup => hcontent markup (by simp [hmarkup]))
            (hsite.replaced _ metadata)
          intro markup hmarkup
          exact (hadmits markup (by simp [hmarkup])).replaced hsite _ metadata

/-! The content of a node that is not a list item. -/

/-- The end of a tag leaves its node, together with a text block that is still open. -/
theorem stop_inside {run : Except BuildError Builder} {builder : Builder} {node : Node}
    {id : NodeId} {tree : Tree} {metadata : Except BuildError (Option Yaml.Value)}
    (hrun : run.map closeTextBlock =
      metadata.map ((builder.inside node (.node id)).replaced tree)) :
    run >>= stop = metadata.map (builder.replaced tree) := by
  cases run with
  | error cause =>
      cases metadata with
      | error other =>
          cases hrun
          rfl
      | ok metadata => cases hrun
  | ok inner =>
      cases metadata with
      | error other => cases hrun
      | ok metadata =>
          have hclosed := Except.ok.inj hrun
          rw [ok_bind, stop, hclosed]
          rfl

theorem events_inside (hsite : Site builder base parent shapes) {node : Node}
    (hcontent : ∀ markup ∈ content, Translates markup) (hnode : node.kind ≠ .listItem) :
    (builder.inside node (.node builder.tree.size)).events (Markup.eventsOfAll content) >>= stop =
      (metadataAfter builder.metadata (Markup.frontMattersOfAll content)).map
        (builder.replaced (base.graftAll parent
          (shapes ++ [.mk node (Part.joined (Markup.partsOfAll builder.source content))]))) := by
  have hitem : (builder.inside node (.node builder.tree.size)).isInItem = false := by
    rw [hsite.isInItem_inside]
    simpa using hnode
  have hrun := events_all hcontent (hsite.inside node (.node builder.tree.size) rfl)
    fun _ _ => ⟨fun _ => rfl, fun _ => hitem⟩
  apply stop_inside
  rw [hrun, ← hsite.graft_eq]
  change Except.map _ (Except.map _ (metadataAfter builder.metadata _)) = _
  cases metadataAfter builder.metadata (Markup.frontMattersOfAll content) with
  | error cause => rfl
  | ok metadata => rfl

end

/-! A tag whose content is captured adds one node at its end; the others open a node. -/

theorem start_of_tree {builder : Builder} (htarget : builder.target = .tree) (tag : Tag) :
    builder.start tag = (if tag.isBlock then builder.closeTextBlock else builder).openTag tag := by
  rw [start, htarget]
  rfl

theorem openTag_link {type : LinkType} (htype : type.isAutomatic = false)
    (destination title : String) (builder : Builder) :
    builder.openTag (.link type destination title) =
      builder.openInline (.link destination title) := by
  simp [openTag, htype]

section

variable {builder : Builder} {base : Tree} {parent : NodeId} {shapes : List Shape}
  (hsite : Site builder base parent shapes) (opening closing : Segment) (content : List Markup)
include hsite

theorem events_openInline {tag : Tag} {node : Node} (htag : tag.isBlock = false)
    (hopen : ∀ builder : Builder, builder.openTag tag = builder.openInline node) :
    builder.events (Markup.span tag opening content closing).events =
      builder.openInline node >>= fun inner =>
        inner.events (Markup.eventsOfAll content) >>= stop := by
  rw [events_span, start_of_tree hsite.target_eq, htag, hopen]
  rfl

theorem events_image (destination title : String) :
    builder.events (Markup.span (.image destination title) opening content closing).events =
      builder.addInline
        (.image destination title (Leaf.altOf (Markup.leavesOfAll content))) := by
  have hidle : { builder with alt := "" } = builder := by rw [← hsite.alt_eq]
  have hstart : builder.start (.image destination title) =
      .ok (builder.push (.image destination title)) := by
    rw [start_of_tree hsite.target_eq]
    change Except.ok ({ builder with alt := "" }.push (.image destination title)) = _
    rw [hidle]
  rw [events_span_capturing hstart rfl Target.noConfusion]
  change { builder with alt := "" }.addInline (.image _ _ (builder.alt ++ _)) = _
  rw [hidle, hsite.alt_eq, String.empty_append]

theorem events_autoLink {type : LinkType} (htype : type.isAutomatic = true)
    (destination title : String) :
    builder.events (Markup.span (.link type destination title) opening content closing).events =
      builder.addInline (.autoLink destination) := by
  have hstart : builder.start (.link type destination title) =
      builder.addInline (.autoLink destination) >>= fun added => .ok (added.push .autoLink) := by
    rw [start_of_tree hsite.target_eq]
    exact if_pos htype
  rw [events_span, hstart, bind_assoc]
  cases builder.addInline (.autoLink destination) with
  | error cause => rfl
  | ok added => exact events_capturing rfl Target.noConfusion content added

section

variable (hclosed : builder.closeTextBlock = builder)
include hclosed

theorem events_openBlock {tag : Tag} {node : Node} (htag : tag.isBlock = true)
    (hopen : builder.openTag tag = builder.openBlock node) :
    builder.events (Markup.span tag opening content closing).events =
      builder.openBlock node >>= fun inner =>
        inner.events (Markup.eventsOfAll content) >>= stop := by
  rw [events_span, start_of_tree hsite.target_eq, if_pos htag, hclosed, hopen]

theorem events_lines {tag : Tag} {frame : Frame} (node : List Segment → Node)
    (htag : tag.isBlock = true)
    (hopen : builder.openTag tag = .ok ({ builder with lines := [] }.push frame))
    (hframe : frame.isTransparent = false) (htarget : frame.target = .lines)
    (hclose : ∀ builder : Builder, builder.closeFrame frame =
      { builder with lines := [] }.addBlock (node builder.lines)) :
    builder.events (Markup.span tag opening content closing).events =
      builder.addBlock (node (Leaf.linesOf (Markup.leavesOfAll content))) := by
  have hidle : { builder with lines := [] } = builder := by rw [← hsite.lines_eq]
  have hstart : builder.start tag = .ok (builder.push frame) := by
    rw [start_of_tree hsite.target_eq, if_pos htag, hclosed, hopen, hidle]
  rw [events_span_capturing hstart hframe (by rw [htarget]; exact Target.noConfusion), htarget,
    hclose]
  change { builder with lines := [] }.addBlock (node (builder.lines ++ _)) = _
  rw [hidle, hsite.lines_eq, List.nil_append]

theorem events_frontMatter :
    builder.events (Markup.span .frontMatter opening content closing).events =
      (frontMatterValue (Leaf.frontMatterOf (Markup.leavesOfAll content))).map
        (builder.replaced builder.tree) := by
  have hidle : { builder with frontMatter := "" } = builder := by rw [← hsite.frontMatter_eq]
  have hstart : builder.start .frontMatter = .ok (builder.push .frontMatter) := by
    rw [start_of_tree hsite.target_eq]
    change Except.ok ({ builder.closeTextBlock with frontMatter := "" }.push .frontMatter) = _
    rw [hclosed, hidle]
  rw [events_span_capturing hstart rfl Target.noConfusion]
  change { builder with frontMatter := "" }.readMetadata (builder.frontMatter ++ _) = _
  rw [hidle, hsite.frontMatter_eq, String.empty_append, readMetadata, frontMatterValue]
  split
  · rfl
  · cases Yaml.Value.read (Leaf.frontMatterOf (Markup.leavesOfAll content)) with
    | ok value => rfl
    | error cause => rfl

end

end

end Builder

end CanonicalMarkdown.Document
