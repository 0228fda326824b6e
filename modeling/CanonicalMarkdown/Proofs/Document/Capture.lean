import CanonicalMarkdown.Proofs.Document.Markup

namespace CanonicalMarkdown.Document

namespace Leaf

variable (left right : List (Leaf × Segment))

theorem linesOf_append : linesOf (left ++ right) = linesOf left ++ linesOf right := by
  simp [linesOf]

theorem altOf_append : altOf (left ++ right) = altOf left ++ altOf right := by
  simp [altOf]

theorem frontMatterOf_append :
    frontMatterOf (left ++ right) = frontMatterOf left ++ frontMatterOf right := by
  simp [frontMatterOf]

end Leaf

namespace Builder

theorem ok_bind {α β : Type} (value : α) (next : α → Except BuildError β) :
    Except.ok value >>= next = next value := rfl

theorem events_append (left right : EventStream) (builder : Builder) :
    builder.events (left ++ right) = builder.events left >>= events right := by
  induction left generalizing builder with
  | nil => rfl
  | cons head rest ih =>
      rw [List.cons_append, events, events, bind_assoc]
      congr 1
      funext middle
      exact ih middle

theorem events_singleton (event : Event) (range : Segment) (builder : Builder) :
    builder.events [(event, range)] = builder.event event range := by
  rw [events]
  exact bind_pure _

theorem events_span (tag : Tag) (opening closing : Segment) (content : List Markup)
    (builder : Builder) :
    builder.events (Markup.span tag opening content closing).events =
      builder.start tag >>= fun opened => opened.events (Markup.eventsOfAll content) >>= stop := by
  rw [Markup.events, events]
  change builder.start tag >>= _ = _
  congr 1
  funext opened
  rw [events_append]
  congr 1
  funext middle
  exact events_singleton .stop closing middle

/-! Captured content fills a buffer and leaves everything else alone. -/

def captured (target : Target) (leaves : List (Leaf × Segment)) (builder : Builder) : Builder :=
  match target with
  | .tree | .nowhere => builder
  | .alt => { builder with alt := builder.alt ++ Leaf.altOf leaves }
  | .lines => { builder with lines := builder.lines ++ Leaf.linesOf leaves }
  | .frontMatter =>
      { builder with frontMatter := builder.frontMatter ++ Leaf.frontMatterOf leaves }

section

variable (target : Target) (builder : Builder)

theorem captured_nil : builder.captured target [] = builder := by
  cases target <;> simp [captured, Leaf.altOf, Leaf.linesOf, Leaf.frontMatterOf]

theorem captured_append (left right : List (Leaf × Segment)) :
    builder.captured target (left ++ right) =
      (builder.captured target left).captured target right := by
  cases target <;>
    simp [captured, Leaf.altOf_append, Leaf.linesOf_append, Leaf.frontMatterOf_append,
      String.append_assoc]

theorem captured_push (frame : Frame) (leaves : List (Leaf × Segment)) :
    (builder.push frame).captured target leaves = (builder.captured target leaves).push frame := by
  cases target <;> rfl

theorem target_captured (leaves : List (Leaf × Segment)) :
    (builder.captured target leaves).target = builder.target := by
  cases target <;> rfl

end

theorem event_captured {target : Target} {builder : Builder} (hbuilder : builder.target = target)
    (htarget : target ≠ .tree) (leaf : Leaf) (range : Segment) :
    builder.event leaf.event range = .ok (builder.captured target [(leaf, range)]) := by
  cases target with
  | tree => exact absurd rfl htarget
  | nowhere | alt | lines | frontMatter =>
      cases leaf <;>
        simp [hbuilder, captured, pure, Except.pure, event, Leaf.event, text, codeSpan, html,
          lineBreak, rule, raw, Leaf.altOf, Leaf.linesOf, Leaf.frontMatterOf, Leaf.alt,
          Leaf.isLine, Leaf.frontMatter]

theorem events_captured_of_forall {target : Target} {content : List Markup}
    (hcontent : ∀ markup ∈ content, ∀ builder : Builder, builder.target = target →
      builder.events markup.events = .ok (builder.captured target markup.leaves))
    {builder : Builder} (hbuilder : builder.target = target) :
    builder.events (Markup.eventsOfAll content) =
      .ok (builder.captured target (Markup.leavesOfAll content)) := by
  induction content generalizing builder with
  | nil =>
      rw [Markup.leavesOfAll, captured_nil]
      rfl
  | cons markup rest ih =>
      rw [Markup.eventsOfAll, events_append, hcontent markup (by simp) builder hbuilder,
        Markup.leavesOfAll, captured_append, ok_bind]
      apply ih fun markup hmarkup => hcontent markup (by simp [hmarkup])
      rw [target_captured]
      exact hbuilder

theorem events_captured {target : Target} (htarget : target ≠ .tree) (markup : Markup)
    {builder : Builder} (hbuilder : builder.target = target) :
    builder.events markup.events = .ok (builder.captured target markup.leaves) := by
  induction markup using Markup.induct generalizing builder with
  | leaf event range =>
      rw [Markup.events, events_singleton, event_captured hbuilder htarget, Markup.leaves]
  | span tag opening content closing ih =>
      have hstart : builder.start tag = .ok (builder.push .transparent) := by
        rw [start, if_pos (by simpa [hbuilder] using htarget)]
        rfl
      have hopened : (builder.push .transparent).target = target := hbuilder
      have hcontent := events_captured_of_forall (fun markup hmarkup _ => ih markup hmarkup) hopened
      rw [events_span, hstart, ok_bind, hcontent, ok_bind, captured_push, Markup.leaves]
      rfl

/-- A capturing frame gets its buffer filled by the content and is closed with it. -/
theorem events_capturing {frame : Frame} (hframe : frame.isTransparent = false)
    (htarget : frame.target ≠ .tree) (content : List Markup) (builder : Builder) :
    (builder.push frame).events (Markup.eventsOfAll content) >>= stop =
      (builder.captured frame.target (Markup.leavesOfAll content)).closeFrame frame := by
  have hpushed : (builder.push frame).target = frame.target := by
    simp [target, push, hframe]
  rw [events_captured_of_forall (fun markup _ _ => events_captured htarget markup) hpushed, ok_bind,
    captured_push]
  cases frame with
  | textBlock => exact absurd rfl htarget
  | node | autoLink | image | indentedCode | fencedCode | html | frontMatter | transparent => rfl

theorem events_span_capturing {builder outer : Builder} {tag : Tag} {frame : Frame}
    (hstart : builder.start tag = .ok (outer.push frame)) (hframe : frame.isTransparent = false)
    (htarget : frame.target ≠ .tree) (opening closing : Segment) (content : List Markup) :
    builder.events (Markup.span tag opening content closing).events =
      (outer.captured frame.target (Markup.leavesOfAll content)).closeFrame frame := by
  rw [events_span, hstart, ok_bind, events_capturing hframe htarget]

end Builder

end CanonicalMarkdown.Document
