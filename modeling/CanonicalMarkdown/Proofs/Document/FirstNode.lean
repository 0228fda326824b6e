import CanonicalMarkdown.Proofs.Document.Transparency

namespace CanonicalMarkdown.Document

theorem Tree.kind_set_broken {tree : Tree} {id : NodeId} {node broken : Node} {hard : Bool}
    (hnode : tree.node? id = some node) (hbroken : Builder.broken? hard node = some broken)
    (other : NodeId) :
    ((tree.set id broken).node? other).map Node.kind = (tree.node? other).map Node.kind := by
  obtain ⟨segment, soft, hardBefore, rfl, rfl⟩ := Stage.broken?_eq_some hbroken
  rw [Tree.node?_set, Option.map_map]
  by_cases hother : other = id
  · simp [hother, hnode, Node.kind]
  · simp [hother, Function.comp_def]

namespace Builder

open Stage

/-! The first node that markup makes is a text block in a list item, and none elsewhere. -/

def FirstMade (builder next : Builder) : Prop :=
  ∃ kind, (next.tree.node? builder.tree.size).map Node.kind = some kind ∧
    (kind = .textBlock ↔ builder.isInItem = true)

def MakesNothing (builder next : Builder) : Prop :=
  builder.isInItem = false ∧ next.tree.size = builder.tree.size

theorem FirstMade.lt {builder next : Builder} (hmade : FirstMade builder next) :
    builder.tree.size < next.tree.size := by
  obtain ⟨kind, hkind, -⟩ := hmade
  obtain ⟨node, hnode, -⟩ := Option.map_eq_some_iff.mp hkind
  exact Tree.lt_of_node? hnode

theorem FirstMade.events {builder middle next : Builder} (hmade : FirstMade builder middle)
    (hlawful : middle.Lawful) {stream : EventStream} (hevents : middle.events stream = .ok next) :
    FirstMade builder next := by
  obtain ⟨made, hmoves⟩ := hlawful.moves_events hevents
  have hkept : (next.tree.node? builder.tree.size).map Node.kind =
      (middle.tree.node? builder.tree.size).map Node.kind :=
    hmoves.kind_node? hlawful.sound hmade.lt
  obtain ⟨kind, hkind, hitem⟩ := hmade
  exact ⟨kind, hkept.trans hkind, hitem⟩

theorem MakesNothing.trans {builder middle next : Builder} (hnothing : MakesNothing builder middle)
    (hitem : middle.isInItem = false) (hlater : FirstMade middle next ∨ MakesNothing middle next) :
    FirstMade builder next ∨ MakesNothing builder next := by
  obtain ⟨hbefore, hsize⟩ := hnothing
  rcases hlater with ⟨kind, hkind, hblock⟩ | ⟨-, hsame⟩
  · rw [hsize] at hkind
    rw [hitem, ← hbefore] at hblock
    exact .inl ⟨kind, hkind, hblock⟩
  · exact .inr ⟨hbefore, hsame.trans hsize⟩

theorem ensures_node?_appendTo (builder : Builder) (parent : NodeId) (node : Node) :
    Ensures (fun added => ∀ other, added.2.tree.node? other =
      if other = builder.tree.size then some node else builder.tree.node? other)
      (builder.appendTo parent node) := by
  unfold appendTo
  split
  · intro added hadded
    cases hadded
  · next id grown happend =>
      obtain ⟨-, rfl, -⟩ := Tree.append?_eq_some happend
      exact .ok (Tree.node?_append happend)

section

variable {builder : Builder}

theorem firstMade_appendTo (hitem : builder.isInItem = false) {node : Node}
    (hnode : node.kind ≠ .textBlock) (parent : NodeId) :
    Ensures (fun added => FirstMade builder added.2) (builder.appendTo parent node) := by
  refine (ensures_node?_appendTo builder parent node).imp fun added hadded => ?_
  refine ⟨node.kind, by rw [hadded, if_pos rfl, Option.map_some], ?_⟩
  rw [hitem]
  exact iff_of_false hnode Bool.false_ne_true

theorem FirstMade.appendTo {middle : Builder} (hmade : FirstMade builder middle)
    (parent : NodeId) (node : Node) :
    Ensures (fun added => FirstMade builder added.2) (middle.appendTo parent node) := by
  refine (ensures_node?_appendTo middle parent node).imp fun added hadded => ?_
  have hne : builder.tree.size ≠ middle.tree.size := Nat.ne_of_lt hmade.lt
  obtain ⟨kind, hkind, hitem⟩ := hmade
  exact ⟨kind, by rw [hadded, if_neg hne, hkind], hitem⟩

theorem firstMade_inlineParent :
    Ensures (fun prepared => FirstMade builder prepared.2 ∨
      builder.isInItem = false ∧ prepared.2 = builder) builder.inlineParent := by
  unfold inlineParent
  split
  · next hitem =>
      refine (ensures_node?_appendTo builder _ .textBlock).bind fun added hadded => .ok (.inl ?_)
      refine ⟨.textBlock, ?_, iff_of_true rfl hitem⟩
      change (added.2.tree.node? builder.tree.size).map Node.kind = _
      rw [hadded, if_pos rfl]
      rfl
  · next hitem => exact .ok (.inr ⟨Bool.not_eq_true _ ▸ hitem, rfl⟩)

theorem firstMade_appendInline {node : Node} (hnode : node.kind ≠ .textBlock) :
    Ensures (fun added => FirstMade builder added.2) (builder.appendInline node) := by
  refine firstMade_inlineParent.bind fun prepared hprepared => ?_
  obtain ⟨parent, middle⟩ := prepared
  rcases hprepared with hmade | ⟨hitem, rfl⟩
  · exact hmade.appendTo parent node
  · exact firstMade_appendTo hitem hnode parent

theorem firstMade_addInline {node : Node} (hnode : node.kind ≠ .textBlock) :
    Ensures (FirstMade builder) (builder.addInline node) :=
  (firstMade_appendInline hnode).bind fun _ hadded => .ok hadded

theorem firstMade_addBlock (hitem : builder.isInItem = false) {node : Node}
    (hnode : node.kind ≠ .textBlock) : Ensures (FirstMade builder) (builder.addBlock node) :=
  (firstMade_appendTo hitem hnode _).bind fun _ hadded => .ok hadded

theorem firstMade_lineBreak (htarget : builder.target = .tree) (hard : Bool) (range : Segment) :
    Ensures (fun next => FirstMade builder next ∨ MakesNothing builder next)
      (builder.lineBreak hard range) := by
  simp only [lineBreak, htarget]
  refine firstMade_inlineParent.bind fun prepared hprepared => ?_
  obtain ⟨parent, middle⟩ := prepared
  dsimp only at hprepared ⊢
  split
  · next id broken hlast hbroken =>
      rw [hlast, Option.bind_some] at hbroken
      obtain ⟨node, hnode, hbroken⟩ := Option.bind_eq_some_iff.mp hbroken
      rcases hprepared with ⟨kind, hkind, hitem⟩ | ⟨hitem, rfl⟩
      · exact .ok (.inl ⟨kind, (Tree.kind_set_broken hnode hbroken _).trans hkind, hitem⟩)
      · exact .ok (.inr ⟨hitem, Tree.size_set ..⟩)
  · rcases hprepared with hmade | ⟨hitem, rfl⟩
    · exact (hmade.appendTo parent _).bind fun added hadded => .ok (.inl hadded)
    · refine (firstMade_appendTo hitem ?_ parent).bind fun added hadded => .ok (.inl hadded)
      exact Kind.noConfusion

theorem firstMade_event {leaf : Leaf} {range : Segment}
    (hinline : (Markup.leaf leaf range).isInline = true) (htarget : builder.target = .tree) :
    Ensures (fun next => FirstMade builder next ∨ MakesNothing builder next)
      (builder.event leaf.event range) := by
  cases leaf with
  | text | html | inlineHtml =>
      simp only [Leaf.event, event, text, html, htarget]
      exact (firstMade_addInline Kind.noConfusion).imp fun _ => .inl
  | footnoteReference | inlineMath | displayMath | taskMarker =>
      simp only [Leaf.event, event, raw, htarget, beq_self_eq_true, if_true]
      exact (firstMade_addInline Kind.noConfusion).imp fun _ => .inl
  | code content =>
      simp only [Leaf.event, event, codeSpan, htarget]
      have hspan : Node.codeSpan.kind ≠ .textBlock := Kind.noConfusion
      refine (firstMade_appendInline hspan).bind fun added hadded => ?_
      exact (hadded.appendTo added.1 _).bind fun last hlast => .ok (.inl hlast)
  | softBreak => exact firstMade_lineBreak htarget false range
  | hardBreak => exact firstMade_lineBreak htarget true range
  | rule => cases hinline

end

theorem openTag_container {tag : Tag} {node : Node} (htag : tag.treatment = .container node)
    (builder : Builder) :
    node.kind ≠ .textBlock ∧
      builder.openTag tag =
        if tag.isBlock then builder.openBlock node else builder.openInline node := by
  cases tag with
  | link type destination title =>
      cases htype : type.isAutomatic with
      | true =>
          simp [Tag.treatment, htype] at htag
      | false =>
          have hlink : Treatment.container (.link destination title) = .container node := by
            simpa [Tag.treatment, htype] using htag
          cases hlink
          exact ⟨Kind.noConfusion, openTag_link htype destination title builder⟩
  | _ =>
      first
      | cases htag
        exact ⟨Kind.noConfusion, rfl⟩
      | cases htag

namespace Lawful

variable {builder next : Builder} (hlawful : builder.Lawful) {tag : Tag}
  {opening closing : Segment} {content : List Markup}
include hlawful

/-- The node of a container is made before its content. -/
theorem firstMade_span (hstart : Ensures (FirstMade builder) (builder.start tag)) :
    Ensures (FirstMade builder)
      (builder.events (Markup.span tag opening content closing).events) := by
  intro next hnext
  rw [Markup.events] at hnext
  obtain ⟨opened, hopened, hrest⟩ := events_cons_eq_ok.mp hnext
  exact (hstart opened hopened).events (hlawful.event hopened) hrest

theorem firstMade_container {node : Node} (htag : tag.treatment = .container node)
    (htarget : builder.target = .tree)
    (hitem : tag.isBlock = true → builder.isInItem = false ∧ builder.closeTextBlock = builder) :
    Ensures (FirstMade builder)
      (builder.events (Markup.span tag opening content closing).events) := by
  apply hlawful.firstMade_span
  rw [start_of_tree htarget]
  cases hblock : tag.isBlock with
  | true =>
      obtain ⟨hitem, hclosed⟩ := hitem hblock
      obtain ⟨hnode, hopen⟩ := openTag_container htag builder
      rw [if_pos rfl, hclosed, hopen, if_pos hblock]
      exact (firstMade_appendTo hitem hnode _).bind fun added hadded => .ok hadded
  | false =>
      obtain ⟨hnode, hopen⟩ := openTag_container htag builder
      rw [if_neg Bool.false_ne_true, hopen, hblock, if_neg Bool.false_ne_true]
      exact (firstMade_appendInline hnode).bind fun added hadded => .ok hadded

theorem firstMade_inline {markup : Markup} (hinline : markup.isInline = true)
    (htarget : builder.target = .tree) :
    Ensures (fun next => FirstMade builder next ∨ MakesNothing builder next)
      (builder.events markup.events) := by
  cases markup with
  | leaf leaf range =>
      rw [Markup.events, events_singleton]
      exact firstMade_event hinline htarget
  | span tag opening content closing =>
      simp only [Markup.isInline, Bool.and_eq_true, Bool.not_eq_true'] at hinline
      obtain ⟨hsupported, hblock⟩ := hinline
      cases htreatment : tag.treatment with
      | container node =>
          refine (hlawful.firstMade_container htreatment htarget ?_).imp fun _ => .inl
          intro htrue
          cases hblock.symm.trans htrue
      | image destination title =>
          rw [events_span_of_tree htarget]
          simp only [runSpan, htreatment]
          have hmade : Ensures (FirstMade { builder with alt := "" })
            (addInline (.image destination title (Leaf.altOf (Markup.leavesOfAll content)))
              { builder with alt := "" }) := firstMade_addInline Kind.noConfusion
          exact hmade.imp fun _ => .inl
      | autoLink destination =>
          rw [events_span_of_tree htarget]
          simp only [runSpan, htreatment]
          exact (firstMade_addInline Kind.noConfusion).imp fun _ => .inl
      | lines | frontMatter =>
          have htrue : tag.isBlock = true := Tag.isBlock_of_treatment (htreatment ▸ rfl)
          cases hblock.symm.trans htrue
      | hidden => exact absurd htreatment (Tag.isSupported_iff.mp hsupported)

theorem push_transparent : (builder.push .transparent).Lawful := by
  have hmove : Move [] builder.stage (builder.push .transparent).stage := .push rfl (.inl rfl)
  exact ⟨⟨hlawful.ready.safe.pushFrame rfl rfl rfl, hmove.nested hlawful.ready.nested⟩,
    hmove.sound hlawful.sound⟩

end Lawful

/-! Inside a transparent frame no text block is made before its list item. -/

structure Veiled (builder : Builder) : Prop where
  lawful : builder.Lawful
  target : builder.target = .tree
  top : builder.frames.head? = some .transparent

namespace Veiled

variable {builder : Builder} (hveiled : builder.Veiled)
include hveiled

theorem isInItem_eq : builder.isInItem = false := by
  obtain ⟨outer, hframes⟩ := List.head?_eq_some_iff.mp hveiled.top
  unfold isInItem
  rw [hframes]

theorem closeTextBlock_eq : builder.closeTextBlock = builder := by
  obtain ⟨outer, hframes⟩ := List.head?_eq_some_iff.mp hveiled.top
  unfold closeTextBlock
  rw [hframes]

theorem frames_events {markup : Markup} {next : Builder}
    (hevents : builder.events markup.events = .ok next) : next.frames = builder.frames := by
  obtain ⟨outer, hframes⟩ := List.head?_eq_some_iff.mp hveiled.top
  rw [hframes]
  exact (ensures_events markup builder next hevents).eq_of_transparent hframes

theorem events {markup : Markup} {next : Builder}
    (hevents : builder.events markup.events = .ok next) : next.Veiled where
  lawful := hveiled.lawful.events hevents
  target := by
    have htarget := hveiled.target
    unfold Builder.target at htarget ⊢
    rwa [hveiled.frames_events hevents]
  top := by rw [hveiled.frames_events hevents, hveiled.top]

theorem eventsOfAll {content : List Markup} {next : Builder}
    (hevents : builder.events (Markup.eventsOfAll content) = .ok next) :
    next.Veiled ∧ next.frames = builder.frames := by
  induction content generalizing builder with
  | nil =>
      cases hevents
      exact ⟨hveiled, rfl⟩
  | cons markup rest ih =>
      rw [Markup.eventsOfAll, events_append] at hevents
      obtain ⟨middle, hmiddle, hrest⟩ := exists_of_bind_eq_ok hevents
      obtain ⟨hnext, hframes⟩ := ih (hveiled.events hmiddle) hrest
      exact ⟨hnext, hframes.trans (hveiled.frames_events hmiddle)⟩

end Veiled

namespace Lawful

variable {builder : Builder} (hlawful : builder.Lawful) (htarget : builder.target = .tree)
include hlawful htarget

theorem veiled_push : (builder.push .transparent).Veiled :=
  ⟨hlawful.push_transparent, htarget, rfl⟩

/-- Of a transparent frame nothing is left but what its content has made. -/
theorem exists_of_transparent {content : List Markup} {next : Builder}
    (hnext : (builder.push .transparent).events (Markup.eventsOfAll content) >>= stop = .ok next) :
    ∃ veiled, (builder.push .transparent).events (Markup.eventsOfAll content) = .ok veiled ∧
      next = { veiled with frames := builder.frames } := by
  obtain ⟨veiled, hveiled, hstop⟩ := exists_of_bind_eq_ok hnext
  have hframes : Frame.closed veiled.frames = .transparent :: builder.frames := by
    rw [((hlawful.veiled_push htarget).eventsOfAll hveiled).2]
    rfl
  rw [stop_of_isPlain rfl hframes] at hstop
  exact ⟨veiled, hveiled, (Except.ok.inj hstop).symm⟩

end Lawful

namespace Veiled

variable {builder : Builder} (hveiled : builder.Veiled)
include hveiled

theorem firstMade_or_of_forall {content : List Markup}
    (hcontent : ∀ markup ∈ content, ∀ builder : Builder, builder.Veiled →
      Ensures (fun next => FirstMade builder next ∨ MakesNothing builder next)
        (builder.events markup.events)) :
    Ensures (fun next => FirstMade builder next ∨ MakesNothing builder next)
      (builder.events (Markup.eventsOfAll content)) := by
  induction content generalizing builder with
  | nil => exact .ok (.inr ⟨hveiled.isInItem_eq, rfl⟩)
  | cons markup rest ih =>
      intro next hnext
      rw [Markup.eventsOfAll, events_append] at hnext
      obtain ⟨middle, hmiddle, hrest⟩ := exists_of_bind_eq_ok hnext
      have hnextVeiled := hveiled.events hmiddle
      have hlater := ih hnextVeiled (fun other hother => hcontent other (by simp [hother]))
        next hrest
      rcases hcontent markup (by simp) builder hveiled middle hmiddle with hmade | hnothing
      · exact .inl (hmade.events hnextVeiled.lawful hrest)
      · exact hnothing.trans hnextVeiled.isInItem_eq hlater

theorem firstMade_or (markup : Markup) :
    Ensures (fun next => FirstMade builder next ∨ MakesNothing builder next)
      (builder.events markup.events) := by
  induction markup using Markup.induct generalizing builder with
  | leaf leaf range =>
      cases leaf with
      | rule =>
          rw [Markup.events, events_singleton]
          simp only [Leaf.event, event, rule, hveiled.target, beq_self_eq_true, if_true,
            hveiled.closeTextBlock_eq]
          exact (firstMade_addBlock hveiled.isInItem_eq Kind.noConfusion).imp fun _ => .inl
      | _ => exact hveiled.lawful.firstMade_inline rfl hveiled.target
  | span tag opening content closing ih =>
      have hcleared : builder.cleared tag = builder := by
        simp [cleared, hveiled.closeTextBlock_eq]
      cases htreatment : tag.treatment with
      | container node =>
          refine (hveiled.lawful.firstMade_container htreatment hveiled.target ?_).imp fun _ => .inl
          exact fun _ => ⟨hveiled.isInItem_eq, hveiled.closeTextBlock_eq⟩
      | image | autoLink =>
          apply hveiled.lawful.firstMade_inline _ hveiled.target
          have hblock : tag.isBlock = false := Tag.isBlock_of_treatment (htreatment ▸ rfl)
          have hsupported : tag.isSupported = true := by
            rw [Tag.isSupported_iff, htreatment]
            exact Treatment.noConfusion
          simp [Markup.isInline, hblock, hsupported]
      | lines node =>
          have hitem : isInItem { builder with lines := [] } = false := hveiled.isInItem_eq
          have hmade := firstMade_addBlock hitem
            (Tag.kind_of_lines htreatment (Leaf.linesOf (Markup.leavesOfAll content)))
          rw [events_span_of_tree hveiled.target]
          simp only [runSpan, htreatment, hcleared]
          exact hmade.imp fun _ => .inl
      | frontMatter =>
          rw [events_span_of_tree hveiled.target]
          simp only [runSpan, htreatment, hcleared, readMetadata]
          split
          · exact .ok (.inr ⟨hveiled.isInItem_eq, rfl⟩)
          · split
            · exact .ok (.inr ⟨hveiled.isInItem_eq, rfl⟩)
            · intro next hnext
              cases hnext
      | hidden =>
          have hinner := hveiled.lawful.veiled_push hveiled.target
          have hmade := hinner.firstMade_or_of_forall
            fun markup hmarkup _ hother => ih markup hmarkup hother
          rw [events_span_of_tree hveiled.target]
          simp only [runSpan, htreatment, hcleared]
          intro next hnext
          obtain ⟨middle, hmiddle, rfl⟩ :=
            hveiled.lawful.exists_of_transparent hveiled.target hnext
          rcases hmade middle hmiddle with ⟨kind, hkind, hblock⟩ | ⟨-, hsize⟩
          · refine .inl ⟨kind, hkind, ?_⟩
            rw [hveiled.isInItem_eq]
            exact hblock
          · exact .inr ⟨hveiled.isInItem_eq, hsize⟩

end Veiled

end Builder

end CanonicalMarkdown.Document
