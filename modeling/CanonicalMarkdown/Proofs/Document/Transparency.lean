import CanonicalMarkdown.Proofs.Document.Nesting
import CanonicalMarkdown.Proofs.Document.Origin

namespace CanonicalMarkdown.Document

/-! Markup by what it asks of the frames around it. -/

namespace Markup

/-- Blocks close a text block that is open before them. -/
def isBlock : Markup → Bool
  | .leaf .rule _ => true
  | .leaf _ _ => false
  | .span tag _ _ _ => tag.isBlock

/-- Inline content opens a text block where it stands directly in a list item. -/
def isInline : Markup → Bool
  | .leaf .rule _ => false
  | .leaf _ _ => true
  | .span tag _ _ _ => tag.isSupported && !tag.isBlock

end Markup

/-- Frames that content cannot tell apart once something else is open inside. -/
structure Frame.Alike (first second : List Frame) : Prop where
  target : (first.find? (!·.isTransparent)).map Frame.target =
    (second.find? (!·.isTransparent)).map Frame.target
  parent : first.findSome? Frame.id? = second.findSome? Frame.id?

theorem Frame.Alike.append {first second : List Frame} (halike : Alike first second)
    (inner : List Frame) : Alike (inner ++ first) (inner ++ second) where
  target := by
    rw [List.find?_append, List.find?_append]
    cases inner.find? (!·.isTransparent) with
    | none => exact halike.target
    | some frame => rfl
  parent := by rw [List.findSome?_append, List.findSome?_append, halike.parent]

theorem Frame.alike_transparent (outer : List Frame) : Alike outer (.transparent :: outer) :=
  ⟨rfl, rfl⟩

namespace Builder

/-! Two runs that differ in the frames around them. -/

/-- The two outcomes are two views of one. -/
def Paired {α β : Type} (left right : α → β) (first second : Except BuildError β) : Prop :=
  ∃ outcome : Except BuildError α, first = outcome.map left ∧ second = outcome.map right

namespace Paired

variable {α β γ δ : Type} {left right : α → β} {left' right' : γ → δ}

theorem ok (value : α) : Paired left right (.ok (left value)) (.ok (right value)) :=
  ⟨.ok value, rfl, rfl⟩

theorem bind {first second : Except BuildError β} {next : β → Except BuildError δ}
    (hpaired : Paired left right first second)
    (hnext : ∀ value, first = .ok (left value) → second = .ok (right value) →
      Paired left' right' (next (left value)) (next (right value))) :
    Paired left' right' (first >>= next) (second >>= next) := by
  obtain ⟨outcome, rfl, rfl⟩ := hpaired
  cases outcome with
  | error cause => exact ⟨.error cause, rfl, rfl⟩
  | ok value => exact hnext value rfl rfl

end Paired

/-- The builder with more frames around its own. -/
def within (outer : List Frame) (builder : Builder) : Builder :=
  { builder with frames := builder.frames ++ outer }

def addedWithin (outer : List Frame) (added : NodeId × Builder) : NodeId × Builder :=
  (added.1, added.2.within outer)

theorem appendTo_within (outer : List Frame) (builder : Builder) (parent : NodeId) (node : Node) :
    (builder.within outer).appendTo parent node =
      (builder.appendTo parent node).map (addedWithin outer) := by
  have htree : (builder.within outer).tree = builder.tree := rfl
  rw [appendTo, appendTo, htree]
  cases builder.tree.append? parent node <;> rfl

section

variable {first second : List Frame} (halike : Frame.Alike first second) (builder : Builder)

theorem paired_appendTo (parent : NodeId) (node : Node) :
    Paired (addedWithin first) (addedWithin second) ((builder.within first).appendTo parent node)
      ((builder.within second).appendTo parent node) :=
  ⟨builder.appendTo parent node, appendTo_within .., appendTo_within ..⟩

include halike

theorem target_within : (builder.within first).target = (builder.within second).target :=
  congrArg (Option.getD · Target.tree) (halike.append builder.frames).target

theorem parent_within : (builder.within first).parent = (builder.within second).parent :=
  congrArg (Option.getD · Tree.rootId) (halike.append builder.frames).parent

theorem paired_append (node : Node) :
    Paired (addedWithin first) (addedWithin second) ((builder.within first).append node)
      ((builder.within second).append node) := by
  rw [append, append, parent_within halike]
  exact paired_appendTo builder _ node

theorem paired_addBlock (node : Node) :
    Paired (within first) (within second) ((builder.within first).addBlock node)
      ((builder.within second).addBlock node) :=
  (paired_append halike builder node).bind fun added _ _ => .ok added.2

section

variable {builder} (hitem : (builder.within first).isInItem = (builder.within second).isInItem)
include hitem

theorem paired_inlineParent :
    Paired (addedWithin first) (addedWithin second) (builder.within first).inlineParent
      (builder.within second).inlineParent := by
  rw [inlineParent, inlineParent, hitem]
  split
  · exact (paired_append halike builder .textBlock).bind fun added _ _ =>
      .ok (added.1, added.2.push (.textBlock added.1))
  · rw [parent_within halike]
    exact .ok ((builder.within second).parent, builder)

theorem paired_appendInline (node : Node) :
    Paired (addedWithin first) (addedWithin second) ((builder.within first).appendInline node)
      ((builder.within second).appendInline node) :=
  (paired_inlineParent halike hitem).bind fun prepared _ _ =>
    paired_appendTo prepared.2 prepared.1 node

theorem paired_addInline (node : Node) :
    Paired (within first) (within second) ((builder.within first).addInline node)
      ((builder.within second).addInline node) :=
  (paired_appendInline halike hitem node).bind fun added _ _ => .ok added.2

end

end

theorem isInItem_congr {builder other : Builder} (htree : builder.tree = other.tree)
    (htop : builder.frames.head? = other.frames.head?) : builder.isInItem = other.isInItem := by
  unfold isInItem
  rw [htree]
  cases hframes : builder.frames with
  | nil =>
      rw [hframes] at htop
      rw [List.head?_eq_none_iff.mp htop.symm]
  | cons top rest =>
      rw [hframes] at htop
      obtain ⟨rest', hother⟩ := List.head?_eq_some_iff.mp htop.symm
      rw [hother]
      cases top <;> rfl

/-- What markup finds out about the frames around is the same. -/
structure Unaware (first second : List Frame) (markup : Markup) (builder : Builder) : Prop where
  item : markup.isInline = true → (builder.within first).isInItem = (builder.within second).isInItem
  closed : markup.isBlock = true →
    (builder.within first).closeTextBlock = builder.closeTextBlock.within first ∧
      (builder.within second).closeTextBlock = builder.closeTextBlock.within second

theorem unaware_of_isPlain {frame : Frame} (hframe : frame.isPlain = true)
    (first second : List Frame) (markup : Markup) (builder : Builder) :
    Unaware (frame :: first) (frame :: second) markup builder where
  item _ := by
    refine isInItem_congr (by rfl) ?_
    cases hframes : builder.frames with
    | nil => simp [within, hframes]
    | cons => simp [within, hframes]
  closed _ := by
    have hclosed : ∀ outer, (builder.within (frame :: outer)).closeTextBlock =
        builder.closeTextBlock.within (frame :: outer) := by
      intro outer
      unfold closeTextBlock
      cases hframes : builder.frames with
      | nil =>
          cases frame with
          | textBlock => cases hframe
          | _ => simp [within, hframes]
      | cons top rest => cases top <;> simp [within, hframes]
    exact ⟨hclosed first, hclosed second⟩

theorem captured_within (outer : List Frame) (builder : Builder) (target : Target)
    (leaves : List (Leaf × Segment)) :
    (builder.within outer).captured target leaves =
      (builder.captured target leaves).within outer := by
  cases target <;> rfl

section

variable {first second : List Frame} (halike : Frame.Alike first second) {builder : Builder}
include halike

theorem paired_lineBreak (hfirst : (builder.within first).target = .tree)
    (hsecond : (builder.within second).target = .tree)
    (hitem : (builder.within first).isInItem = (builder.within second).isInItem)
    (hard : Bool) (range : Segment) :
    Paired (within first) (within second) ((builder.within first).lineBreak hard range)
      ((builder.within second).lineBreak hard range) := by
  simp only [lineBreak, hfirst, hsecond]
  refine (paired_inlineParent halike hitem).bind fun prepared _ _ => ?_
  obtain ⟨parent, middle⟩ := prepared
  have halone : Paired (within first) (within second)
      ((middle.within first).appendTo parent (.lineBreak range.start hard) >>= fun added =>
        return added.2)
      ((middle.within second).appendTo parent (.lineBreak range.start hard) >>= fun added =>
        return added.2) := (paired_appendTo middle parent _).bind fun added _ _ => .ok added.2
  simp only [addedWithin, within]
  cases middle.tree.lastOf parent with
  | none => exact halone
  | some id =>
      simp only [Option.bind_some]
      cases (middle.tree.node? id).bind (broken? hard) with
      | none => exact halone
      | some node => exact .ok { middle with tree := middle.tree.set id node }

theorem paired_event {leaf : Leaf} {range : Segment}
    (hunaware : Unaware first second (.leaf leaf range) builder) :
    Paired (within first) (within second) ((builder.within first).event leaf.event range)
      ((builder.within second).event leaf.event range) := by
  have htarget := target_within halike builder
  by_cases htree : (builder.within second).target = .tree
  · have hfirst := htarget.trans htree
    cases leaf with
    | text | html | inlineHtml =>
        simp only [Leaf.event, event, text, html, hfirst, htree]
        exact paired_addInline halike (hunaware.item rfl) _
    | footnoteReference | inlineMath | displayMath | taskMarker =>
        simp only [Leaf.event, event, raw, hfirst, htree, beq_self_eq_true, if_true]
        exact paired_addInline halike (hunaware.item rfl) _
    | code content =>
        simp only [Leaf.event, event, codeSpan, hfirst, htree]
        refine (paired_appendInline halike (hunaware.item rfl) _).bind fun added _ _ => ?_
        exact (paired_appendTo added.2 added.1 _).bind fun last _ _ => .ok last.2
    | softBreak | hardBreak =>
        exact paired_lineBreak halike hfirst htree (hunaware.item rfl) _ range
    | rule =>
        simp only [Leaf.event, event, rule, hfirst, htree, beq_self_eq_true, if_true,
          (hunaware.closed rfl).1, (hunaware.closed rfl).2]
        exact paired_addBlock halike _ _
  · rw [event_captured htarget htree, event_captured rfl htree, captured_within, captured_within]
    exact .ok _

end

/-- Markup that cannot tell the frames around from others does the same to both. -/
def Oblivious (markup : Markup) : Prop :=
  ∀ ⦃first second : List Frame⦄ ⦃builder : Builder⦄, Frame.Alike first second →
    Unaware first second markup builder →
      Paired (within first) (within second) ((builder.within first).events markup.events)
        ((builder.within second).events markup.events)

section

variable {content : List Markup} (hcontent : ∀ markup ∈ content, Oblivious markup)
include hcontent

theorem paired_eventsOfAll {frame : Frame} (hframe : frame.isPlain = true)
    {first second : List Frame} (halike : Frame.Alike (frame :: first) (frame :: second))
    (builder : Builder) :
    Paired (within (frame :: first)) (within (frame :: second))
      ((builder.within (frame :: first)).events (Markup.eventsOfAll content))
      ((builder.within (frame :: second)).events (Markup.eventsOfAll content)) := by
  induction content generalizing builder with
  | nil => exact .ok builder
  | cons markup rest ih =>
      rw [Markup.eventsOfAll, events_append, events_append]
      have hunaware := unaware_of_isPlain hframe first second markup builder
      refine (hcontent markup (by simp) halike hunaware).bind fun next _ _ => ?_
      exact ih (fun other hother => hcontent other (by simp [hother])) next

theorem paired_content {frame : Frame} (hframe : frame.isPlain = true) {first second : List Frame}
    (halike : Frame.Alike first second) (outer : Builder) :
    Paired (within first) (within second)
      (((outer.push frame).within first).events (Markup.eventsOfAll content) >>= stop)
      (((outer.push frame).within second).events (Markup.eventsOfAll content) >>= stop) := by
  have hinside : Frame.Alike (frame :: (outer.frames ++ first))
      (frame :: (outer.frames ++ second)) := halike.append (frame :: outer.frames)
  -- Nothing but a text block is open inside of the frame when its end comes.
  have hstop : ∀ frames inner, ((outer.push frame).within frames).events
      (Markup.eventsOfAll content) = .ok (within (frame :: (outer.frames ++ frames)) inner) →
      (within (frame :: (outer.frames ++ frames)) inner).stop =
        .ok (within frames { inner with frames := outer.frames }) := by
    intro frames inner hrun
    have hclosed := Frame.closed_of_isPlain hframe (outer.frames ++ frames)
    exact stop_of_isPlain hframe (ensures_eventsOfAll (fun markup _ => ensures_events markup)
      hclosed hclosed _ hrun)
  have hpaired := paired_eventsOfAll hcontent hframe hinside { outer with frames := [] }
  refine hpaired.bind fun inner hfirst hsecond => ?_
  rw [hstop first inner hfirst, hstop second inner hsecond]
  exact .ok { inner with frames := outer.frames }

end

theorem paired_runSpan {content : List Markup} (hcontent : ∀ markup ∈ content, Oblivious markup)
    {first second : List Frame} {builder : Builder} (halike : Frame.Alike first second)
    {tag : Tag} {opening closing : Segment}
    (hunaware : Unaware first second (.span tag opening content closing) builder) :
    Paired (within first) (within second) ((builder.within first).runSpan tag content)
      ((builder.within second).runSpan tag content) := by
  have hcleared : (builder.within first).cleared tag = (builder.cleared tag).within first ∧
      (builder.within second).cleared tag = (builder.cleared tag).within second := by
    unfold cleared
    split
    · next hblock => exact hunaware.closed hblock
    · exact ⟨rfl, rfl⟩
  have hitem : tag.treatment ≠ .hidden → tag.isBlock = false →
      (builder.within first).isInItem = (builder.within second).isInItem := by
    intro hhidden hblock
    apply hunaware.item
    simp [Markup.isInline, Tag.isSupported_iff.mpr hhidden, hblock]
  cases htreatment : tag.treatment with
  | container node =>
      simp only [runSpan, htreatment, hcleared]
      split
      · rw [openBlock, openBlock, bind_assoc, bind_assoc]
        refine (paired_append halike (builder.cleared tag) node).bind fun added _ _ => ?_
        exact paired_content hcontent rfl halike added.2
      · next hblock =>
          have hitem := hitem (htreatment ▸ Treatment.noConfusion) (Bool.not_eq_true _ ▸ hblock)
          rw [openInline, openInline, bind_assoc, bind_assoc]
          refine (paired_appendInline halike hitem node).bind fun added _ _ => ?_
          exact paired_content hcontent rfl halike added.2
  | lines node =>
      simp only [runSpan, htreatment, hcleared]
      exact paired_addBlock halike { builder.cleared tag with lines := [] } _
  | image destination title =>
      have hblock : tag.isBlock = false := Tag.isBlock_of_treatment (htreatment ▸ rfl)
      have hitem : (within first { builder with alt := "" }).isInItem =
          (within second { builder with alt := "" }).isInItem :=
        hitem (htreatment ▸ Treatment.noConfusion) hblock
      simp only [runSpan, htreatment]
      exact paired_addInline halike hitem _
  | autoLink destination =>
      have hblock : tag.isBlock = false := Tag.isBlock_of_treatment (htreatment ▸ rfl)
      simp only [runSpan, htreatment]
      exact paired_addInline halike (hitem (htreatment ▸ Treatment.noConfusion) hblock) _
  | frontMatter =>
      simp only [runSpan, htreatment, hcleared, readMetadata]
      split
      · exact .ok { builder.cleared tag with frontMatter := "", metadata := none }
      · split
        · next value _ =>
            exact .ok { builder.cleared tag with frontMatter := "", metadata := some value }
        · next cause _ => exact ⟨.error (.frontMatter cause), rfl, rfl⟩
  | hidden =>
      simp only [runSpan, htreatment, hcleared]
      exact paired_content hcontent rfl halike (builder.cleared tag)

theorem oblivious (markup : Markup) : Oblivious markup := by
  induction markup using Markup.induct with
  | leaf leaf range =>
      intro first second builder halike hunaware
      rw [Markup.events, events_singleton, events_singleton]
      exact paired_event halike hunaware
  | span tag opening content closing ih =>
      intro first second builder halike hunaware
      have htarget := target_within halike builder
      by_cases htree : (builder.within second).target = .tree
      · rw [events_span_of_tree (htarget.trans htree), events_span_of_tree htree]
        exact paired_runSpan ih halike hunaware
      · rw [events_captured htree _ htarget, events_captured htree _ rfl, captured_within,
          captured_within]
        exact .ok _

def isInTextBlock (builder : Builder) : Bool :=
  match builder.frames with
  | .textBlock _ :: _ => true
  | _ => false

/-- Content that a transparent frame around it leaves as it is: it neither has to open a text block
in a list item nor to close the one that is open. -/
structure Flattens (builder : Builder) (content : List Markup) : Prop where
  item : builder.isInItem = true → ∀ markup ∈ content, markup.isInline = false
  block : builder.isInTextBlock = true → ∀ markup ∈ content, markup.isBlock = false

/-! A list item stays one, whatever is read. -/

namespace Lawful

variable {builder final : Builder} (hlawful : builder.Lawful)
include hlawful

theorem isInItem_events {stream : EventStream} (hevents : builder.events stream = .ok final)
    (hframes : final.frames = builder.frames) : final.isInItem = builder.isInItem := by
  obtain ⟨made, hmoves⟩ := hlawful.moves_events hevents
  unfold isInItem
  rw [hframes]
  cases htop : builder.frames with
  | nil => rfl
  | cons frame rest =>
      cases frame with
      | node id =>
          have hid : id < builder.tree.size :=
            hlawful.ready.safe.frames (.node id) (by simp [htop]) id rfl
          have hkind : (final.tree.node? id).map Node.kind =
              (builder.tree.node? id).map Node.kind := hmoves.kind_node? hlawful.sound hid
          have hany := congrArg (Option.any (· == .listItem)) hkind
          rwa [Option.any_map, Option.any_map] at hany
      | _ => rfl

end Lawful

/-- Inside a transparent frame nothing of it is left behind. -/
theorem Restored.eq_of_transparent {builder next : Builder} {outer : List Frame}
    (hrestored : Restored builder next) (hbuilder : builder.frames = .transparent :: outer) :
    next.frames = .transparent :: outer := by
  have hitem : builder.isInItem = false := by
    unfold isInItem
    rw [hbuilder]
  rcases hrestored with (hnext | ⟨htrue, -⟩) | hnext
  · exact hnext.trans hbuilder
  · cases hitem.symm.trans htrue
  · rw [hnext, hbuilder]
    rfl

section

variable {builder : Builder} (hframes : builder.frames = []) {outer : List Frame}
include hframes

theorem unaware_of_flattens {content : List Markup} {markup : Markup} (hmarkup : markup ∈ content)
    (hflattens : (builder.within outer).Flattens content) :
    Unaware outer (.transparent :: outer) markup builder where
  item hinline := by
    have hitem : (builder.within outer).isInItem = false := by
      rw [← Bool.not_eq_true]
      intro hitem
      cases (hflattens.item hitem markup hmarkup).symm.trans hinline
    rw [hitem]
    simp [isInItem, within, hframes]
  closed hblock := by
    have htop : (builder.within outer).isInTextBlock = false := by
      rw [← Bool.not_eq_true]
      intro htop
      cases (hflattens.block htop markup hmarkup).symm.trans hblock
    have hnone : builder.closeTextBlock = builder := by
      unfold closeTextBlock
      rw [hframes]
    have hkept : (builder.within outer).closeTextBlock = builder.within outer := by
      unfold closeTextBlock
      split
      · next heq => simp [isInTextBlock, heq] at htop
      · rfl
    refine ⟨by rw [hkept, hnone], ?_⟩
    rw [hnone]
    simp [closeTextBlock, within, hframes]

theorem paired_transparent (hlawful : (builder.within outer).Lawful) {content : List Markup}
    (hflattens : (builder.within outer).Flattens content) :
    ∃ outcome : Except BuildError Builder,
      (builder.within outer).events (Markup.eventsOfAll content) = outcome.map (within outer) ∧
      (builder.within (.transparent :: outer)).events (Markup.eventsOfAll content) =
        outcome.map (within (.transparent :: outer)) ∧
      Ensures (fun next => next.frames = []) outcome := by
  induction content generalizing builder with
  | nil => exact ⟨.ok builder, rfl, rfl, .ok hframes⟩
  | cons markup rest ih =>
      obtain ⟨outcome, hfirst, hsecond⟩ := oblivious markup (Frame.alike_transparent outer)
        (unaware_of_flattens hframes List.mem_cons_self hflattens)
      rw [Markup.eventsOfAll, events_append, events_append, hfirst, hsecond]
      cases outcome with
      | error cause => exact ⟨.error cause, rfl, rfl, by rintro _ ⟨⟩⟩
      | ok next =>
          have hrestored := ensures_events markup _ _ hsecond
          have houter : next.frames ++ .transparent :: outer = [] ++ .transparent :: outer :=
            hrestored.eq_of_transparent (by simp [within, hframes])
          have hnext : next.frames = [] := List.append_cancel_right houter
          have hsame : (next.within outer).frames = (builder.within outer).frames := by
            simp [within, hnext, hframes]
          have hitem := hlawful.isInItem_events hfirst hsame
          refine ih hnext (hlawful.events hfirst) ⟨?_, ?_⟩
          · rw [hitem]
            exact fun hin other hother => hflattens.item hin other (List.mem_cons_of_mem _ hother)
          · unfold isInTextBlock
            rw [hsame]
            exact fun hin other hother => hflattens.block hin other (List.mem_cons_of_mem _ hother)

end

section

variable {tag : Tag} (hhidden : tag.treatment = .hidden) (hinline : tag.isBlock = false)
include hhidden hinline

theorem events_span_hidden {builder : Builder} (htarget : builder.target = .tree)
    (opening closing : Segment) (content : List Markup) :
    builder.events (Markup.span tag opening content closing).events =
      (builder.push .transparent).events (Markup.eventsOfAll content) >>= stop := by
  have hcleared : builder.cleared tag = builder := by simp [cleared, hinline]
  rw [events_span_of_tree htarget]
  simp only [runSpan, hhidden, hcleared]

theorem Lawful.events_span_of_flattens {builder : Builder} (hlawful : builder.Lawful)
    {content : List Markup} (hflattens : builder.Flattens content) (opening closing : Segment) :
    builder.events (Markup.span tag opening content closing).events =
      builder.events (Markup.eventsOfAll content) := by
  by_cases htarget : builder.target = .tree
  · have hbare : ({ builder with frames := [] } : Builder).frames = [] := rfl
    obtain ⟨outcome, hfirst, hsecond, hframes⟩ := paired_transparent hbare hlawful hflattens
    rw [events_span_hidden hhidden hinline htarget]
    change (within (.transparent :: builder.frames) { builder with frames := [] }).events _ >>=
      stop = (within builder.frames { builder with frames := [] }).events _
    rw [hfirst, hsecond]
    cases outcome with
    | error cause => rfl
    | ok next =>
        have hnext : next.frames = [] := hframes next rfl
        have hclosed : Frame.closed (next.within (.transparent :: builder.frames)).frames =
            .transparent :: builder.frames := by
          rw [within, hnext]
          rfl
        refine (stop_of_isPlain rfl hclosed).trans (congrArg Except.ok ?_)
        simp [within, hnext]
  · rw [events_captured htarget _ rfl, Markup.leaves,
      events_captured_of_forall (fun markup _ _ => events_captured htarget markup) rfl]

end

end Builder

end CanonicalMarkdown.Document
