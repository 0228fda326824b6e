import CanonicalMarkdown.Proofs.Document.Translation

namespace CanonicalMarkdown.Document

/-! What becomes of a tag that nothing captures. -/

inductive Treatment where
  /-- A node is open around the content. -/
  | container (node : Node)
  | lines (node : List Segment → Node)
  | image (destination title : String)
  | autoLink (destination : String)
  | frontMatter
  | hidden

def Tag.treatment : Tag → Treatment
  | .paragraph => .container .paragraph
  | .heading level => .container (.heading level.toNat)
  | .blockquote => .container .blockquote
  | .list start => .container (.list start.isSome (start.getD 1))
  | .item => .container .listItem
  | .emphasis => .container (.emphasis 1)
  | .strong => .container (.emphasis 2)
  | .strikethrough => .container .strikethrough
  | .link type destination title =>
      if type.isAutomatic then .autoLink destination else .container (.link destination title)
  | .indentedCode => .lines .codeBlock
  | .fencedCode info => .lines (.fencedCodeBlock (Text.firstWord? info))
  | .htmlBlock => .lines (.htmlBlock · none)
  | .image destination title => .image destination title
  | .frontMatter => .frontMatter
  | .footnoteDefinition | .table | .tableHead | .tableRow | .tableCell | .definitionList
  | .definitionTitle | .definitionDetail | .superscript | .subscript => .hidden

theorem Tag.isSupported_iff {tag : Tag} : tag.isSupported = true ↔ tag.treatment ≠ .hidden := by
  cases tag with
  | link type destination title =>
      simp only [Tag.isSupported, Tag.treatment]
      split <;> simp
  | _ => simp [Tag.isSupported, Tag.treatment]

/-- Whether all tags with the treatment are blocks, or none. -/
def Treatment.isBlock? : Treatment → Option Bool
  | .lines _ | .frontMatter => some true
  | .image _ _ | .autoLink _ => some false
  | .container _ | .hidden => none

theorem Tag.isBlock_of_treatment {tag : Tag} {block : Bool}
    (htag : tag.treatment.isBlock? = some block) : tag.isBlock = block := by
  cases tag with
  | link type destination title =>
      simp only [Tag.treatment] at htag
      split at htag
      · cases htag
        rfl
      · cases htag
  | indentedCode | fencedCode | htmlBlock | frontMatter | image =>
      cases htag
      rfl
  | _ => cases htag

theorem Tag.kind_of_lines {tag : Tag} {node : List Segment → Node}
    (htag : tag.treatment = .lines node) (lines : List Segment) :
    (node lines).kind ≠ .textBlock := by
  cases tag with
  | indentedCode | fencedCode | htmlBlock =>
      cases htag
      exact Kind.noConfusion
  | link type destination title =>
      simp only [Tag.treatment] at htag
      split at htag <;> cases htag
  | _ => cases htag

namespace Builder

/-- The builder that the node of a tag is added to: a block closes the text block before it. -/
def cleared (tag : Tag) (builder : Builder) : Builder :=
  if tag.isBlock then builder.closeTextBlock else builder

def runSpan (tag : Tag) (content : List Markup) (builder : Builder) : Except BuildError Builder :=
  match tag.treatment with
  | .container node =>
      (if tag.isBlock then (builder.cleared tag).openBlock node else builder.openInline node) >>=
        fun opened => opened.events (Markup.eventsOfAll content) >>= stop
  | .lines node =>
      { builder.cleared tag with lines := [] }.addBlock
        (node (Leaf.linesOf (Markup.leavesOfAll content)))
  | .image destination title =>
      { builder with alt := "" }.addInline
        (.image destination title (Leaf.altOf (Markup.leavesOfAll content)))
  | .autoLink destination => builder.addInline (.autoLink destination)
  | .frontMatter =>
      { builder.cleared tag with frontMatter := "" }.readMetadata
        (Leaf.frontMatterOf (Markup.leavesOfAll content))
  | .hidden =>
      ((builder.cleared tag).push .transparent).events (Markup.eventsOfAll content) >>= stop

theorem events_span_of_tree {builder : Builder} (htarget : builder.target = .tree) (tag : Tag)
    (opening closing : Segment) (content : List Markup) :
    builder.events (Markup.span tag opening content closing).events =
      builder.runSpan tag content := by
  have hstart := start_of_tree htarget tag
  cases tag with
  | paragraph | heading | blockquote | list | item | emphasis | strong | strikethrough =>
      rw [events_span, hstart]
      rfl
  | footnoteDefinition | table | tableHead | tableRow | tableCell | definitionList
  | definitionTitle | definitionDetail | superscript | subscript =>
      rw [events_span, hstart]
      rfl
  | indentedCode | fencedCode | htmlBlock =>
      rw [events_span_capturing hstart rfl Target.noConfusion]
      rfl
  | image =>
      rw [events_span_capturing hstart rfl Target.noConfusion]
      change addInline (.image _ _ ("" ++ _)) _ = _
      rw [String.empty_append]
      rfl
  | frontMatter =>
      rw [events_span_capturing hstart rfl Target.noConfusion]
      change readMetadata ("" ++ _) _ = _
      rw [String.empty_append]
      rfl
  | link type destination title =>
      cases htype : type.isAutomatic with
      | false =>
          rw [events_span, hstart]
          simp only [openTag, runSpan, Tag.treatment, htype]
          rfl
      | true =>
          have hlink : builder.start (.link type destination title) =
              builder.addInline (.autoLink destination) >>= fun added =>
                .ok (added.push .autoLink) := hstart.trans (if_pos htype)
          have htreatment : (Tag.link type destination title).treatment =
              .autoLink destination := if_pos htype
          rw [events_span, hlink, bind_assoc]
          simp only [runSpan, htreatment]
          cases builder.addInline (.autoLink destination) with
          | error cause => rfl
          | ok added => exact events_capturing rfl Target.noConfusion content added

/-! Whatever a run does if it does not fail. -/

theorem exists_of_bind_eq_ok {α β : Type} {outcome : Except BuildError α}
    {next : α → Except BuildError β} {final : β} (hfinal : outcome >>= next = .ok final) :
    ∃ value, outcome = .ok value ∧ next value = .ok final := by
  cases outcome with
  | error cause => cases hfinal
  | ok value => exact ⟨value, rfl, hfinal⟩

def Ensures {α : Type} (Holds : α → Prop) (outcome : Except BuildError α) : Prop :=
  ∀ value, outcome = .ok value → Holds value

namespace Ensures

variable {α β : Type} {Holds : α → Prop} {Then : β → Prop}

theorem ok {value : α} (hvalue : Holds value) : Ensures Holds (.ok value) := by
  rintro _ ⟨rfl⟩
  exact hvalue

theorem bind {outcome : Except BuildError α} {next : α → Except BuildError β}
    (houtcome : Ensures Holds outcome) (hnext : ∀ value, Holds value → Ensures Then (next value)) :
    Ensures Then (outcome >>= next) := by
  cases outcome with
  | error cause => rintro _ ⟨⟩
  | ok value => exact hnext value (houtcome value rfl)

theorem imp {Other : α → Prop} {outcome : Except BuildError α} (houtcome : Ensures Holds outcome)
    (himp : ∀ value, Holds value → Other value) : Ensures Other outcome :=
  fun value hvalue => himp value (houtcome value hvalue)

end Ensures

end Builder

/-! Markup leaves the frames as it found them, text blocks aside. -/

/-- The frames without a text block that is innermost. -/
def Frame.closed : List Frame → List Frame
  | .textBlock _ :: rest => rest
  | frames => frames

/-- Frames that are simply left at their end. -/
def Frame.isPlain : Frame → Bool
  | .node _ | .transparent => true
  | _ => false

theorem Frame.closed_of_isPlain {frame : Frame} (hframe : frame.isPlain = true)
    (rest : List Frame) : Frame.closed (frame :: rest) = frame :: rest := by
  cases frame with
  | textBlock => cases hframe
  | _ => rfl

namespace Builder

theorem frames_closeTextBlock (builder : Builder) :
    builder.closeTextBlock.frames = Frame.closed builder.frames := by
  unfold closeTextBlock Frame.closed
  split <;> simp_all

theorem closed_of_isInItem {builder : Builder} (hitem : builder.isInItem = true) :
    Frame.closed builder.frames = builder.frames := by
  rw [← frames_closeTextBlock, closeTextBlock_of_isInItem hitem]

/-- Inline content opens at most a text block. -/
def Settled (builder next : Builder) : Prop :=
  next.frames = builder.frames ∨
    builder.isInItem = true ∧ ∃ id, next.frames = .textBlock id :: builder.frames

/-- A block may close one. -/
def Restored (builder next : Builder) : Prop :=
  Settled builder next ∨ next.frames = Frame.closed builder.frames

section

variable (node : Node) (builder : Builder)

theorem ensures_appendTo (parent : NodeId) :
    Ensures (fun added => added.2.frames = builder.frames) (builder.appendTo parent node) := by
  unfold appendTo
  split
  · rintro _ ⟨⟩
  · exact .ok rfl

theorem ensures_inlineParent :
    Ensures (fun prepared => Settled builder prepared.2) builder.inlineParent := by
  unfold inlineParent
  split
  · next hitem =>
      refine (ensures_appendTo _ builder _).bind fun added hadded => ?_
      exact .ok (.inr ⟨hitem, added.1, congrArg _ hadded⟩)
  · exact .ok (.inl rfl)

theorem ensures_appendInline :
    Ensures (fun added => Settled builder added.2) (builder.appendInline node) := by
  refine (ensures_inlineParent builder).bind fun prepared hprepared => ?_
  refine (ensures_appendTo node prepared.2 prepared.1).imp fun added hadded => ?_
  rw [Settled, hadded]
  exact hprepared

theorem ensures_addBlock :
    Ensures (fun next => next.frames = builder.frames) (builder.addBlock node) :=
  (ensures_appendTo node builder _).bind fun _ hadded => .ok hadded

theorem ensures_addInline : Ensures (Settled builder) (builder.addInline node) :=
  (ensures_appendInline node builder).bind fun _ hadded => .ok hadded

theorem ensures_openBlock :
    Ensures (fun opened => ∃ id outer, opened = push (.node id) outer ∧
      outer.frames = builder.frames) (builder.openBlock node) :=
  (ensures_appendTo node builder _).bind fun added hadded => .ok ⟨added.1, added.2, rfl, hadded⟩

theorem ensures_openInline :
    Ensures (fun opened => ∃ id outer, opened = push (.node id) outer ∧ Settled builder outer)
      (builder.openInline node) :=
  (ensures_appendInline node builder).bind fun added hadded =>
    .ok ⟨added.1, added.2, rfl, hadded⟩

end

theorem ensures_event (leaf : Leaf) (range : Segment) (builder : Builder) :
    Ensures (Restored builder) (builder.event leaf.event range) := by
  by_cases htarget : builder.target = .tree
  · cases leaf with
    | text | html | inlineHtml =>
        simp only [Leaf.event, event, text, html, htarget]
        exact (ensures_addInline _ builder).imp fun _ => .inl
    | footnoteReference | inlineMath | displayMath | taskMarker =>
        simp only [Leaf.event, event, raw, htarget, beq_self_eq_true, if_true]
        exact (ensures_addInline _ builder).imp fun _ => .inl
    | code content =>
        simp only [Leaf.event, event, codeSpan, htarget]
        refine (ensures_appendInline .codeSpan builder).bind fun added hadded => ?_
        refine (ensures_appendTo (.string content) added.2 added.1).bind fun last hlast => ?_
        refine .ok (.inl ?_)
        rw [Settled, hlast]
        exact hadded
    | softBreak | hardBreak =>
        simp only [Leaf.event, event, lineBreak, htarget]
        refine (ensures_inlineParent builder).bind fun prepared hprepared => ?_
        split
        · exact .ok (.inl hprepared)
        · refine (ensures_appendTo _ prepared.2 prepared.1).bind fun added hadded => ?_
          refine .ok (.inl ?_)
          rw [Settled, hadded]
          exact hprepared
    | rule =>
        simp only [Leaf.event, event, rule, htarget, beq_self_eq_true, if_true]
        refine (ensures_addBlock .thematicBreak builder.closeTextBlock).imp fun next hnext => ?_
        exact .inr (hnext.trans (frames_closeTextBlock builder))
  · rw [event_captured rfl htarget]
    refine .ok (.inl (.inl ?_))
    cases builder.target <;> rfl

theorem Restored.closed_eq {builder next : Builder} {outer : List Frame}
    (hrestored : Restored builder next) (houter : Frame.closed outer = outer)
    (hbuilder : Frame.closed builder.frames = outer) : Frame.closed next.frames = outer := by
  rcases hrestored with (hnext | ⟨hitem, id, hnext⟩) | hnext
  · rw [hnext, hbuilder]
  · rw [hnext, ← hbuilder, closed_of_isInItem hitem]
    rfl
  · rw [hnext, hbuilder, houter]

theorem stop_of_isPlain {inner : Builder} {frame : Frame} {outer : List Frame}
    (hframe : frame.isPlain = true) (hinner : Frame.closed inner.frames = frame :: outer) :
    inner.stop = .ok { inner with frames := outer } := by
  have hclosed : { inner.closeTextBlock with frames := outer } =
      { inner with frames := outer } := by
    unfold closeTextBlock
    split <;> rfl
  rw [← frames_closeTextBlock] at hinner
  simp only [stop, hinner, hclosed]
  cases frame with
  | node | transparent => rfl
  | _ => cases hframe

section

variable {content : List Markup} (hcontent : ∀ markup ∈ content, ∀ builder : Builder,
  Ensures (Restored builder) (builder.events markup.events))
include hcontent

theorem ensures_eventsOfAll {builder : Builder} {outer : List Frame}
    (houter : Frame.closed outer = outer) (hbuilder : Frame.closed builder.frames = outer) :
    Ensures (fun next => Frame.closed next.frames = outer)
      (builder.events (Markup.eventsOfAll content)) := by
  induction content generalizing builder with
  | nil => exact .ok hbuilder
  | cons markup rest ih =>
      rw [Markup.eventsOfAll, events_append]
      refine (hcontent markup (by simp) builder).bind fun next hnext => ?_
      exact ih (fun other hother => hcontent other (by simp [hother]))
        (hnext.closed_eq houter hbuilder)

theorem ensures_content {frame : Frame} (hframe : frame.isPlain = true) (outer : Builder) :
    Ensures (fun next => next.frames = outer.frames)
      ((outer.push frame).events (Markup.eventsOfAll content) >>= stop) := by
  have hclosed := Frame.closed_of_isPlain hframe outer.frames
  refine (ensures_eventsOfAll hcontent hclosed hclosed).bind fun inner hinner => ?_
  rw [stop_of_isPlain hframe hinner]
  exact .ok rfl

end

theorem ensures_runSpan {content : List Markup} (hcontent : ∀ markup ∈ content,
      ∀ builder : Builder, Ensures (Restored builder) (builder.events markup.events))
    (tag : Tag) (builder : Builder) :
    Ensures (Restored builder) (builder.runSpan tag content) := by
  have hcleared : ∀ next : Builder, next.frames = (builder.cleared tag).frames →
      Restored builder next := by
    intro next hnext
    unfold cleared at hnext
    split at hnext
    · exact .inr (hnext.trans (frames_closeTextBlock builder))
    · exact .inl (.inl hnext)
  unfold runSpan
  split
  · next node _ =>
      split
      · refine (ensures_openBlock node _).bind ?_
        rintro _ ⟨id, outer, rfl, houter⟩
        refine (ensures_content hcontent rfl outer).imp fun next hnext => ?_
        exact hcleared next (hnext.trans houter)
      · refine (ensures_openInline node builder).bind ?_
        rintro _ ⟨id, outer, rfl, houter⟩
        refine (ensures_content hcontent rfl outer).imp fun next hnext => .inl ?_
        rw [Settled, hnext]
        exact houter
  · exact (ensures_addBlock _ _).imp hcleared
  · exact (ensures_addInline _ _).imp fun next hnext => .inl hnext
  · exact (ensures_addInline _ _).imp fun next hnext => .inl hnext
  · unfold readMetadata
    split
    · exact .ok (hcleared _ rfl)
    · split
      · exact .ok (hcleared _ rfl)
      · rintro _ ⟨⟩
  · exact (ensures_content hcontent rfl _).imp hcleared

theorem ensures_events (markup : Markup) (builder : Builder) :
    Ensures (Restored builder) (builder.events markup.events) := by
  induction markup using Markup.induct generalizing builder with
  | leaf leaf range =>
      rw [Markup.events, events_singleton]
      exact ensures_event leaf range builder
  | span tag opening content closing ih =>
      by_cases htarget : builder.target = .tree
      · rw [events_span_of_tree htarget]
        exact ensures_runSpan ih tag builder
      · rw [events_captured htarget _ rfl]
        refine .ok (.inl (.inl ?_))
        cases builder.target <;> rfl

end Builder

end CanonicalMarkdown.Document
