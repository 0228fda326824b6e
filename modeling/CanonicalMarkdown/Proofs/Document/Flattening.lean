import CanonicalMarkdown.Proofs.Document.FirstNode
import CanonicalMarkdown.Proofs.Document.Order

namespace CanonicalMarkdown.Document

/-! A node that is no longer open gets no more children. -/

namespace Stage

theorem Sound.lt_of_mem_openIds {stage : Stage} (hsound : stage.Sound) {id : NodeId}
    (hid : id ∈ stage.openIds) : id < stage.tree.size := by
  obtain ⟨frame, hframe, hid⟩ := List.mem_filterMap.mp hid
  obtain ⟨node, hnode, -⟩ := hsound.frames frame hframe id hid
  exact Tree.lt_of_node? hnode

theorem parent_ne {stage : Stage} {id : NodeId} (hroot : id ≠ Tree.rootId)
    (hid : id ∉ stage.openIds) : stage.parent ≠ id := by
  rw [parent_eq]
  cases hopen : stage.openIds with
  | nil => exact hroot.symm
  | cons first rest =>
      intro heq
      apply hid
      rw [hopen, ← heq]
      exact List.mem_cons_self

theorem Sound.parentOf_added {stage : Stage} (hsound : stage.Sound) {node : Node}
    {upper id : NodeId} (hupper : stage.parent ≠ upper)
    (hid : (stage.added node).tree.parentOf id = some upper) :
    stage.tree.parentOf id = some upper := by
  rw [Tree.parentOf_append (hsound.append?_eq node)] at hid
  split at hid
  · exact absurd (Option.some.inj hid) hupper
  · exact hid

section

variable {made : List Node} {start finish : Stage} {upper : NodeId}

theorem Move.openIds (hmove : Move made start finish) :
    finish.openIds = start.tree.size :: start.openIds ∨
      List.Sublist finish.openIds start.openIds := by
  cases hmove with
  | push hid => exact .inr (by simp [Stage.openIds, pushed, hid])
  | pop => exact .inr ((List.sublist_cons_self _ _).filterMap Frame.id?)
  | add | addCode | breakLine => exact .inr (List.Sublist.refl _)
  | openNode | openTextBlock => exact .inl rfl

theorem Move.nodup_openIds (hmove : Move made start finish) (hsound : start.Sound)
    (hnodup : start.openIds.Nodup) : finish.openIds.Nodup := by
  rcases hmove.openIds with hopen | hsublist
  · rw [hopen, List.nodup_cons]
    exact ⟨fun hsize => Nat.lt_irrefl _ (hsound.lt_of_mem_openIds hsize), hnodup⟩
  · exact hnodup.sublist hsublist

theorem Moves.nodup_openIds (hmoves : Moves made start finish) (hsound : start.Sound)
    (hnodup : start.openIds.Nodup) : finish.openIds.Nodup := by
  induction hmoves with
  | none => exact hnodup
  | cons hmove _ ih => exact ih (hmove.sound hsound) (hmove.nodup_openIds hsound hnodup)

section

variable (hroot : upper ≠ Tree.rootId)
include hroot

theorem Move.parentOf (hmove : Move made start finish) (hsound : start.Sound)
    (hupper : upper < start.tree.size) (hopen : upper ∉ start.openIds) {id : NodeId}
    (hid : finish.tree.parentOf id = some upper) : start.tree.parentOf id = some upper := by
  have hparent := parent_ne hroot hopen
  cases hmove with
  | push | pop => exact hid
  | add | openNode | openTextBlock => exact hsound.parentOf_added hparent hid
  | addCode code =>
      have hspan := hsound.node?_added_size .codeSpan
      rw [Tree.parentOf_append (Tree.append?_of_lt (Tree.lt_of_node? hspan) _)] at hid
      split at hid
      · exact absurd (Option.some.inj hid) (Nat.ne_of_gt hupper)
      · exact hsound.parentOf_added hparent hid
  | breakLine => exact Tree.parentOf_set .. ▸ hid

theorem Moves.parentOf (hmoves : Moves made start finish) (hsound : start.Sound)
    (hupper : upper < start.tree.size) (hopen : upper ∉ start.openIds) {id : NodeId}
    (hid : finish.tree.parentOf id = some upper) : start.tree.parentOf id = some upper := by
  induction hmoves with
  | none => exact hid
  | @cons first others start middle finish hmove _ ih =>
      have hlater : upper < middle.tree.size := by
        rw [hmove.moves.size_eq hsound]
        exact Nat.lt_of_lt_of_le hupper (Nat.le_add_right ..)
      have hstill : upper ∉ middle.openIds := by
        rcases hmove.openIds with hnew | hsublist
        · rw [hnew, List.mem_cons, not_or]
          exact ⟨Nat.ne_of_lt hupper, hopen⟩
        · exact fun hmem => hopen (hsublist.subset hmem)
      have hmiddle := ih (hmove.sound hsound) hlater hstill hid
      exact hmove.parentOf hroot hsound hupper hopen hmiddle

end

end

end Stage

namespace Builder

open Stage

/-! What is left open by markup can be closed without a trace. -/

/-- Nothing is being captured. -/
def Upright (builder : Builder) : Prop := ∀ frame ∈ builder.frames, frame.target = .tree

theorem Ready.upright_iff {builder : Builder} (hready : builder.Ready) :
    builder.Upright ↔ builder.target = .tree :=
  (target_eq_tree_iff builder.stage hready.nested).symm

theorem Upright.closed {builder : Builder} (hupright : builder.Upright) :
    ∀ frame ∈ Frame.closed builder.frames, frame.target = .tree := by
  intro frame hframe
  apply hupright
  unfold Frame.closed at hframe
  split at hframe
  · next heq => exact heq ▸ List.mem_cons_of_mem _ hframe
  · exact hframe

theorem Restored.upright {builder next : Builder} (hrestored : Restored builder next)
    (hupright : builder.Upright) : next.Upright := by
  intro frame hframe
  rcases hrestored with (hnext | ⟨-, id, hnext⟩) | hnext
  · exact hupright frame (hnext ▸ hframe)
  · rw [hnext] at hframe
    rcases List.mem_cons.mp hframe with rfl | hframe
    · rfl
    · exact hupright frame hframe
  · exact hupright.closed frame (hnext ▸ hframe)

theorem Upright.eventsOfAll {content : List Markup} {builder next : Builder}
    (hupright : builder.Upright)
    (hevents : builder.events (Markup.eventsOfAll content) = .ok next) : next.Upright := by
  induction content generalizing builder with
  | nil =>
      cases hevents
      exact hupright
  | cons markup rest ih =>
      rw [Markup.eventsOfAll, events_append] at hevents
      obtain ⟨middle, hmiddle, hrest⟩ := exists_of_bind_eq_ok hevents
      exact ih ((ensures_events markup builder middle hmiddle).upright hupright) hrest

theorem tree_closeTextBlock (builder : Builder) : builder.closeTextBlock.tree = builder.tree := by
  unfold closeTextBlock
  split <;> rfl

theorem Upright.stop {builder : Builder} (hupright : builder.Upright) :
    ∃ next, builder.stop = .ok next ∧ next.Upright ∧ next.tree = builder.tree := by
  have htree := tree_closeTextBlock builder
  have hupright : builder.closeTextBlock.Upright := by
    intro frame hframe
    rw [frames_closeTextBlock] at hframe
    exact hupright.closed frame hframe
  unfold Builder.stop
  simp only
  split
  · exact ⟨_, rfl, hupright, htree⟩
  · next frame rest hframes =>
      have hframe : frame.target = .tree := hupright frame (by simp [hframes])
      have hrest : ∀ other ∈ rest, other.target = .tree :=
        fun other hother => hupright other (by simp [hframes, hother])
      cases frame with
      | node | textBlock | transparent => exact ⟨_, rfl, hrest, htree⟩
      | _ => cases hframe

theorem Upright.stops {builder : Builder} (hupright : builder.Upright) (count : Nat)
    (closing : Segment) :
    ∃ next, builder.events (List.replicate count (.stop, closing)) = .ok next ∧
      next.tree = builder.tree := by
  induction count generalizing builder with
  | zero => exact ⟨builder, rfl, rfl⟩
  | succ count ih =>
      obtain ⟨middle, hstop, hmiddle, htree⟩ := hupright.stop
      obtain ⟨next, hnext, hsame⟩ := ih hmiddle
      refine ⟨next, ?_, hsame.trans htree⟩
      rw [List.replicate_succ]
      exact events_cons_eq_ok.mpr ⟨middle, hstop, hnext⟩

/-! Content that a transparent frame around it changes. -/

theorem target_of_isInItem {builder : Builder} (hitem : builder.isInItem = true) :
    builder.target = .tree := by
  obtain ⟨id, rest, hframes, -⟩ := exists_of_isInItem hitem
  rw [target, hframes]
  rfl

theorem exists_of_isInTextBlock {builder : Builder} (hblock : builder.isInTextBlock = true) :
    ∃ id rest, builder.frames = .textBlock id :: rest := by
  unfold isInTextBlock at hblock
  split at hblock
  · next id rest hframes => exact ⟨id, rest, hframes⟩
  · cases hblock

theorem isInItem_of_isInTextBlock {builder : Builder} (hblock : builder.isInTextBlock = true) :
    builder.isInItem = false := by
  obtain ⟨id, rest, hframes⟩ := exists_of_isInTextBlock hblock
  rw [isInItem, hframes]

theorem ensures_parentOf_appendTo (builder : Builder) (parent : NodeId) (node : Node) :
    Ensures (fun added => added.2.tree.parentOf builder.tree.size = some parent)
      (builder.appendTo parent node) := by
  unfold appendTo
  split
  · intro added hadded
    cases hadded
  · next id grown happend =>
      obtain ⟨-, rfl, -⟩ := Tree.append?_eq_some happend
      refine .ok ?_
      rw [Tree.parentOf_append happend, if_pos rfl]

theorem ensures_parentOf_addInline {builder : Builder} (hitem : builder.isInItem = false)
    (node : Node) :
    Ensures (fun next => next.tree.parentOf builder.tree.size = some builder.parent)
      (builder.addInline node) := by
  have hinline : builder.inlineParent = .ok (builder.parent, builder) := by
    rw [inlineParent, hitem]
    rfl
  rw [addInline, appendInline, hinline, ok_bind]
  exact (ensures_parentOf_appendTo builder builder.parent node).bind fun _ hadded => .ok hadded

section

variable {builder : Builder} {block : NodeId} {outer : List Frame}
  (hframes : builder.frames = .textBlock block :: outer)
include hframes

theorem target_of_textBlock : builder.target = .tree := by
  rw [target, hframes]
  rfl

theorem ensures_parentOf_text (content : String) (range : Segment) :
    Ensures (fun next => next.tree.parentOf builder.tree.size = some block)
      (builder.text content range) := by
  have hitem : builder.isInItem = false := by rw [isInItem, hframes]
  have hparent : builder.parent = block := by
    rw [parent, hframes]
    rfl
  rw [← hparent, text, target_of_textBlock hframes]
  exact ensures_parentOf_addInline hitem _

theorem notMem_openIds_closeTextBlock (hnodup : builder.stage.openIds.Nodup) :
    block ∉ builder.closeTextBlock.stage.openIds := by
  have hclosed : builder.closeTextBlock.stage.openIds = outer.filterMap Frame.id? := by
    rw [openIds, stage, frames_closeTextBlock, hframes]
    rfl
  rw [openIds, stage, hframes] at hnodup
  rw [hclosed]
  exact (List.nodup_cons.mp hnodup).1

theorem Lawful.textBlock_ne_root_and_lt (hlawful : builder.Lawful) :
    block ≠ Tree.rootId ∧ block < builder.tree.size := by
  obtain ⟨node, hnode, hopens⟩ := hlawful.sound.frames (.textBlock block)
    (by simp [stage, hframes]) block rfl
  refine ⟨fun hroot => ?_, Tree.lt_of_node? hnode⟩
  cases hopens
  rw [hroot, hlawful.sound.root] at hnode
  cases hnode

end

namespace Lawful

variable {builder final veiled : Builder} (hlawful : builder.Lawful)
include hlawful

theorem exists_middle {first rest : List Markup} (hflattens : builder.Flattens first)
    (hplain : builder.events (Markup.eventsOfAll (first ++ rest)) = .ok final)
    (hveiled : (builder.push .transparent).events (Markup.eventsOfAll (first ++ rest)) =
      .ok veiled) :
    ∃ middle : Builder, middle.Lawful ∧ middle.frames = builder.frames ∧
      middle.isInItem = builder.isInItem ∧ middle.events (Markup.eventsOfAll rest) = .ok final ∧
      (middle.push .transparent).events (Markup.eventsOfAll rest) = .ok veiled := by
  have hbare : ({ builder with frames := [] } : Builder).frames = [] := rfl
  obtain ⟨outcome, hfirst, hsecond, hframes⟩ := paired_transparent hbare hlawful hflattens
  rw [Markup.eventsOfAll_append, events_append] at hplain hveiled
  obtain ⟨middle, hmiddle, hrest⟩ := exists_of_bind_eq_ok hplain
  obtain ⟨inner, hinner, hveiled⟩ := exists_of_bind_eq_ok hveiled
  cases outcome with
  | error cause => cases hmiddle.symm.trans hfirst
  | ok next =>
      have hnext : next.frames = [] := hframes next rfl
      cases hmiddle.symm.trans hfirst
      cases hinner.symm.trans hsecond
      have hsame : (next.within builder.frames).frames = builder.frames := by simp [within, hnext]
      refine ⟨_, hlawful.events hmiddle, hsame, hlawful.isInItem_events hmiddle hsame, hrest, ?_⟩
      simpa [within, push, hnext] using hveiled

omit hlawful in
theorem exists_first {content : List Markup} {markup : Markup} {test : Markup → Bool}
    (hmarkup : markup ∈ content) (htest : test markup = true) :
    ∃ before first after, content = before ++ first :: after ∧ test first = true ∧
      ∀ other ∈ before, test other = false := by
  obtain ⟨first, hfirst⟩ :=
    Option.isSome_iff_exists.mp (List.find?_isSome.mpr ⟨markup, hmarkup, htest⟩)
  obtain ⟨htest, before, after, hcontent, hbefore⟩ := List.find?_eq_some_iff_append.mp hfirst
  exact ⟨before, first, after, hcontent, htest, by simpa using hbefore⟩

theorem tree_ne_of_isInline (hitem : builder.isInItem = true) {content : List Markup}
    {markup : Markup} (hmarkup : markup ∈ content) (hinline : markup.isInline = true)
    (hplain : builder.events (Markup.eventsOfAll content) = .ok final)
    (hveiled : (builder.push .transparent).events (Markup.eventsOfAll content) = .ok veiled) :
    final.tree ≠ veiled.tree := by
  obtain ⟨before, first, after, rfl, hfirst, hbefore⟩ := exists_first hmarkup hinline
  have hflattens : builder.Flattens before := by
    refine ⟨fun _ => hbefore, fun hblock => ?_⟩
    cases hitem.symm.trans (isInItem_of_isInTextBlock hblock)
  obtain ⟨middle, hmiddle, -, hin, hrest, hinside⟩ := hlawful.exists_middle hflattens hplain hveiled
  have hitem := hin.trans hitem
  have htarget := target_of_isInItem hitem
  -- Without the frame the first inline piece opens a text block, which stays.
  have hmade : FirstMade middle final := by
    rw [Markup.eventsOfAll, events_append] at hrest
    obtain ⟨next, hnext, hrest⟩ := exists_of_bind_eq_ok hrest
    rcases hmiddle.firstMade_inline hfirst htarget next hnext with hmade | ⟨hout, -⟩
    · exact hmade.events (hmiddle.events hnext) hrest
    · cases hitem.symm.trans hout
  have hinner := hmiddle.veiled_push htarget
  intro htree
  obtain ⟨kind, hkind, hblock⟩ := hmade
  have hblock : kind = .textBlock := hblock.mpr hitem
  rcases hinner.firstMade_or_of_forall (fun markup _ _ hother => hother.firstMade_or markup) veiled
    hinside with ⟨other, hother, hno⟩ | ⟨-, hsize⟩
  · rw [htree] at hkind
    cases hkind.symm.trans hother
    cases hno.mp hblock
  · obtain ⟨node, hnode, -⟩ := Option.map_eq_some_iff.mp hkind
    have hlt := Tree.lt_of_node? hnode
    rw [htree, hsize] at hlt
    exact Nat.lt_irrefl _ hlt

theorem moves_of_isBlock {markup : Markup} (hblock : markup.isBlock = true)
    (htarget : builder.target = .tree) (hevents : builder.events markup.events = .ok final) :
    ∃ made, Moves made builder.closeTextBlock.stage final.stage := by
  have hclosed := hlawful.ready.closeTextBlock
  cases markup with
  | leaf leaf range =>
      cases leaf with
      | rule =>
          rw [Markup.events, events_singleton] at hevents
          simp only [Leaf.event, Builder.event, rule, htarget, beq_self_eq_true, if_true] at hevents
          obtain ⟨blocks, -, hmoves⟩ := hclosed.safe.leads_addBlock rfl final hevents
          exact ⟨_, hmoves⟩
      | _ => cases hblock
  | span tag opening content closing =>
      rw [Markup.events] at hevents
      obtain ⟨opened, hopened, hrest⟩ := events_cons_eq_ok.mp hevents
      obtain ⟨made, hmoves⟩ := (hlawful.event hopened).moves_events hrest
      have hblock : tag.isBlock = true := hblock
      have hstart : builder.closeTextBlock.openTag tag = .ok opened := by
        have hstart := start_of_tree htarget tag
        rw [if_pos hblock] at hstart
        exact hstart.symm.trans hopened
      obtain ⟨blocks, -, hopen⟩ := hclosed.safe.leads_openTag
        (hlawful.ready.target_closeTextBlock htarget) tag opened hstart
      exact ⟨_, hopen.append hmoves⟩

/-- A block closes the text block before it, which then gets no more children. -/
theorem parentOf_of_isBlock {block : NodeId} {outer : List Frame}
    (hframes : builder.frames = .textBlock block :: outer)
    (hnodup : builder.stage.openIds.Nodup) {markup : Markup} {rest : EventStream}
    (hblock : markup.isBlock = true) (hevents : builder.events (markup.events ++ rest) = .ok final)
    {id : NodeId} (hid : final.tree.parentOf id = some block) :
    builder.tree.parentOf id = some block := by
  rw [events_append] at hevents
  obtain ⟨next, hnext, hrest⟩ := exists_of_bind_eq_ok hevents
  obtain ⟨made, hclosed⟩ := hlawful.moves_of_isBlock hblock (target_of_textBlock hframes) hnext
  obtain ⟨others, hothers⟩ := (hlawful.events hnext).moves_events hrest
  obtain ⟨hroot, hupper⟩ := hlawful.textBlock_ne_root_and_lt hframes
  have hsound := (moves_closeTextBlock builder).sound hlawful.sound
  have htree : builder.closeTextBlock.stage.tree = builder.tree := tree_closeTextBlock builder
  have hold := (hclosed.append hothers).parentOf hroot hsound (htree ▸ hupper)
    (notMem_openIds_closeTextBlock hframes hnodup) hid
  rwa [htree] at hold

theorem tree_ne_of_isBlock (hnodup : builder.stage.openIds.Nodup)
    (hin : builder.isInTextBlock = true) {content : List Markup} {markup : Markup}
    (hmarkup : markup ∈ content) (hblock : markup.isBlock = true)
    (hplain : builder.events (Markup.eventsOfAll content) = .ok final)
    (hveiled : (builder.push .transparent).events (Markup.eventsOfAll content) = .ok veiled)
    {text : String} {range : Segment} {last later : Builder}
    (hlast : final.text text range = .ok last)
    (hlater : Builder.text text range { veiled with frames := builder.frames } = .ok later) :
    last.tree ≠ later.tree := by
  obtain ⟨before, first, after, rfl, hfirst, hbefore⟩ := exists_first hmarkup hblock
  have hflattens : builder.Flattens before := by
    refine ⟨fun hitem => ?_, fun _ => hbefore⟩
    cases (isInItem_of_isInTextBlock hin).symm.trans hitem
  obtain ⟨middle, hmiddle, hframes, -, hrest, hinside⟩ :=
    hlawful.exists_middle hflattens hplain hveiled
  obtain ⟨block, outer, houter⟩ := exists_of_isInTextBlock hin
  have hnodup : middle.stage.openIds.Nodup := by
    rw [openIds, stage, hframes]
    exact hnodup
  have hevents : middle.events
      (first.events ++ (Markup.eventsOfAll after ++ [(.text text, range)])) =
      .ok last := by
    rw [Markup.eventsOfAll] at hrest
    rw [← List.append_assoc, events_append, hrest, ok_bind, events_singleton]
    exact hlast
  -- With the frame around it the text block is still open, and takes the text after the end.
  have hopen : Builder.frames { veiled with frames := builder.frames } =
      .textBlock block :: outer :=
    houter
  have hparent : later.tree.parentOf veiled.tree.size = some block :=
    ensures_parentOf_text hopen text range later hlater
  intro heq
  rw [← heq] at hparent
  have hlt := Tree.lt_of_parentOf
    (hmiddle.parentOf_of_isBlock (hframes.trans houter) hnodup hfirst hevents hparent)
  obtain ⟨made, hmoves⟩ := hmiddle.push_transparent.moves_events hinside
  have hsize : veiled.tree.size = middle.tree.size + made.length :=
    hmoves.size_eq hmiddle.push_transparent.sound
  rw [hsize] at hlt
  exact Nat.not_lt_of_le (Nat.le_add_right ..) hlt

end Lawful

end Builder

/-! Streams around a pair. -/

theorem openAfter_append (count : Nat) (left right : EventStream) :
    openAfter count (left ++ right) = (openAfter count left).bind (openAfter · right) := by
  induction left generalizing count with
  | nil => rfl
  | cons head rest ih =>
      obtain ⟨event, range⟩ := head
      rcases event.eq_start_or_stop_or_leaf with ⟨tag, rfl⟩ | rfl | ⟨leaf, rfl⟩
      · exact ih (count + 1)
      · cases count with
        | zero => rfl
        | succ count => exact ih count
      · rw [List.cons_append, openAfter_leaf, openAfter_leaf]
        exact ih count

theorem openAfter_eventsOfAll_of_forall {content : List Markup}
    (hcontent : ∀ markup ∈ content, ∀ count, openAfter count markup.events = some count)
    (count : Nat) : openAfter count (Markup.eventsOfAll content) = some count := by
  induction content with
  | nil => rfl
  | cons markup rest ih =>
      rw [Markup.eventsOfAll, openAfter_append, hcontent markup (by simp)]
      exact ih fun other hother => hcontent other (by simp [hother])

theorem openAfter_events (markup : Markup) (count : Nat) :
    openAfter count markup.events = some count := by
  induction markup using Markup.induct generalizing count with
  | leaf leaf range =>
      rw [Markup.events, openAfter_leaf]
      rfl
  | span tag opening content closing ih =>
      rw [Markup.events]
      change openAfter (count + 1) _ = some count
      rw [openAfter_append, openAfter_eventsOfAll_of_forall ih]
      rfl

theorem openAfter_stops (count : Nat) (closing : Segment) :
    openAfter count (List.replicate count (.stop, closing)) = some 0 := by
  induction count with
  | zero => rfl
  | succ count ih => exact ih

theorem wellNested_around {before after : EventStream} {depth : Nat}
    (hdepth : openAfter 0 before = some depth) (markup : Markup)
    (hafter : openAfter depth after = some 0) : WellNested (before ++ markup.events ++ after) := by
  rw [WellNested, List.append_assoc, openAfter_append, hdepth, Option.bind_some, openAfter_append,
    openAfter_events, Option.bind_some, hafter]

theorem Parsed.ofEvents_append {source : Source} {before : EventStream} {reached : Builder}
    (hbefore : Builder.events before { source } = .ok reached) (rest : EventStream) :
    Parsed.ofEvents source (before ++ rest) =
      (reached.events rest).map fun builder => ⟨builder.tree, builder.metadata⟩ := by
  rw [Parsed.ofEvents, Builder.events_append, hbefore, Builder.ok_bind]
  cases reached.events rest <;> rfl

namespace Builder

theorem nodup_openIds {source : Source} {before : EventStream} {reached : Builder}
    (hbefore : Builder.events before { source } = .ok reached) : reached.stage.openIds.Nodup := by
  obtain ⟨made, hmoves⟩ := (lawful_new source).moves_events hbefore
  exact hmoves.nodup_openIds (lawful_new source).sound List.nodup_nil

theorem Lawful.exists_text {builder : Builder} (hlawful : builder.Lawful)
    (htarget : builder.target = .tree) (content : String) (range : Segment) :
    ∃ next, builder.text content range = .ok next := by
  obtain ⟨middle, blocks, -, happend⟩ := hlawful.ready.safe.appendInline_eq
    (.plainText (textSegment builder.source content range))
  simp only [Builder.text, htarget, addInline, happend]
  exact ⟨_, rfl⟩

end Builder

namespace Parsed

section

variable {source : Source} {before after : EventStream} {reached final last : Builder}
  (hbefore : Builder.events before { source } = .ok reached) {tag : Tag}
  (hhidden : tag.treatment = .hidden) (hinline : tag.isBlock = false)
  {opening closing : Segment} {content : List Markup}
  (hplain : reached.events (Markup.eventsOfAll content) = .ok final)
include hbefore hhidden hinline hplain

theorem exists_veiled_of_eq (htarget : reached.target = .tree)
    (hafter : final.events after = .ok last)
    (heq : ofEvents source (before ++ (Markup.span tag opening content closing).events ++ after) =
      ofEvents source (before ++ Markup.eventsOfAll content ++ after)) :
    ∃ veiled later, (reached.push .transparent).events (Markup.eventsOfAll content) = .ok veiled ∧
      Builder.events after { veiled with frames := reached.frames } = .ok later ∧
      later.tree = last.tree := by
  have hlawful := (Builder.lawful_new source).events hbefore
  rw [List.append_assoc, List.append_assoc, ofEvents_append hbefore, ofEvents_append hbefore,
    Builder.events_append, Builder.events_append, hplain, Builder.ok_bind, hafter] at heq
  cases hspan : reached.events (Markup.span tag opening content closing).events with
  | error cause =>
      rw [hspan] at heq
      cases heq
  | ok next =>
      rw [hspan, Builder.ok_bind] at heq
      rw [Builder.events_span_hidden hhidden hinline htarget] at hspan
      obtain ⟨veiled, hveiled, rfl⟩ := hlawful.exists_of_transparent htarget hspan
      cases hlater : Builder.events after { veiled with frames := reached.frames } with
      | error cause =>
          rw [hlater] at heq
          cases heq
      | ok later =>
          rw [hlater] at heq
          exact ⟨veiled, later, hveiled, hlater, congrArg Parsed.tree (Except.ok.inj heq)⟩

variable {depth : Nat} (hdepth : openAfter 0 before = some depth)
  (hsame : ∀ after,
    WellNested (before ++ (Markup.span tag opening content closing).events ++ after) →
    ofEvents source (before ++ (Markup.span tag opening content closing).events ++ after) =
      ofEvents source (before ++ Markup.eventsOfAll content ++ after))
include hdepth hsame

theorem not_isInline_of_forall_eq (hitem : reached.isInItem = true) {markup : Markup}
    (hmarkup : markup ∈ content) : markup.isInline = false := by
  have hlawful := (Builder.lawful_new source).events hbefore
  have htarget := Builder.target_of_isInItem hitem
  have hupright := hlawful.ready.upright_iff.mpr htarget
  have hnested := wellNested_around hdepth (.span tag opening content closing)
    (openAfter_stops depth closing)
  obtain ⟨last, hlast, htree⟩ := (hupright.eventsOfAll hplain).stops depth closing
  obtain ⟨veiled, later, hveiled, hlater, hequal⟩ :=
    exists_veiled_of_eq hbefore hhidden hinline hplain htarget hlast (hsame _ hnested)
  have hframes : Builder.Upright { veiled with frames := reached.frames } := hupright
  obtain ⟨other, hother, hkept⟩ := hframes.stops depth closing
  cases hother.symm.trans hlater
  rw [← Bool.not_eq_true]
  intro htrue
  apply hlawful.tree_ne_of_isInline hitem hmarkup htrue hplain hveiled
  rw [← htree, ← hequal, hkept]

theorem not_isBlock_of_forall_eq (hin : reached.isInTextBlock = true) {markup : Markup}
    (hmarkup : markup ∈ content) : markup.isBlock = false := by
  have hlawful := (Builder.lawful_new source).events hbefore
  have hfinal := hlawful.events hplain
  obtain ⟨block, outer, houter⟩ := Builder.exists_of_isInTextBlock hin
  have htarget := Builder.target_of_textBlock houter
  have hupright := hlawful.ready.upright_iff.mpr htarget
  have hclosed : openAfter depth
      ((.text "", closing) :: List.replicate depth (.stop, closing)) = some 0 :=
    openAfter_stops depth closing
  have hnested := wellNested_around hdepth (.span tag opening content closing) hclosed
  obtain ⟨written, hwritten⟩ := hfinal.exists_text
    (hfinal.ready.upright_iff.mp (hupright.eventsOfAll hplain)) "" closing
  have hstill := (Builder.ensures_event (.text "") closing final written hwritten).upright
    (hupright.eventsOfAll hplain)
  obtain ⟨last, hlast, htree⟩ := hstill.stops depth closing
  have hafter : final.events ((.text "", closing) :: List.replicate depth (.stop, closing)) =
      .ok last := Builder.events_cons_eq_ok.mpr ⟨written, hwritten, hlast⟩
  obtain ⟨veiled, later, hveiled, hlater, hequal⟩ :=
    exists_veiled_of_eq hbefore hhidden hinline hplain htarget hafter (hsame _ hnested)
  obtain ⟨added, hadded, hlater⟩ := Builder.events_cons_eq_ok.mp hlater
  have hframes : Builder.Upright { veiled with frames := reached.frames } := hupright
  have hopen := (Builder.ensures_event (.text "") closing _ added hadded).upright hframes
  obtain ⟨other, hother, hkept⟩ := hopen.stops depth closing
  cases hother.symm.trans hlater
  rw [← Bool.not_eq_true]
  intro htrue
  apply hlawful.tree_ne_of_isBlock (Builder.nodup_openIds hbefore) hin hmarkup htrue hplain hveiled
    hwritten hadded
  rw [← htree, ← hequal, hkept]

end

/-- A transparent frame in the place that the stream has come to makes no difference to the
content. -/
def Flattened (source : Source) (before : EventStream) (content : List Markup) : Prop :=
  ∀ reached, Builder.events before { source } = .ok reached → reached.Flattens content

/-- A pair without a node leaves no trace exactly where its content neither opens a text block nor
closes one: the frame of the pair hides the list item and the text block from it. -/
theorem pair_leaves_no_trace_iff (source : Source) (before : EventStream) {tag : Tag}
    (htag : tag = .superscript ∨ tag = .subscript) (opening closing : Segment)
    (content : List Markup) :
    (Flattened source before content → ∀ after,
      ofEvents source (before ++ (Markup.span tag opening content closing).events ++ after) =
        ofEvents source (before ++ Markup.eventsOfAll content ++ after)) ∧
    ((∃ depth, openAfter 0 before = some depth) →
      (∃ parsed, ofEvents source (before ++ Markup.eventsOfAll content) = .ok parsed) →
      (∀ after, WellNested (before ++ (Markup.span tag opening content closing).events ++ after) →
        ofEvents source (before ++ (Markup.span tag opening content closing).events ++ after) =
          ofEvents source (before ++ Markup.eventsOfAll content ++ after)) →
      Flattened source before content) := by
  have hhidden : tag.treatment = .hidden := by
    rcases htag with rfl | rfl <;> rfl
  have hinline : tag.isBlock = false := by
    rcases htag with rfl | rfl <;> rfl
  constructor
  · intro hflattened after
    rw [List.append_assoc, List.append_assoc]
    cases hbefore : Builder.events before { source } with
    | error cause =>
        rw [ofEvents, ofEvents, Builder.events_append, Builder.events_append, hbefore]
        rfl
    | ok reached =>
        have hlawful := (Builder.lawful_new source).events hbefore
        rw [ofEvents_append hbefore, ofEvents_append hbefore, Builder.events_append,
          Builder.events_append, hlawful.events_span_of_flattens hhidden hinline
            (hflattened reached hbefore)]
  · intro hopen hread hsame reached hbefore
    obtain ⟨depth, hdepth⟩ := hopen
    obtain ⟨parsed, hparsed⟩ := hread
    obtain ⟨final, hplain⟩ : ∃ final, reached.events (Markup.eventsOfAll content) = .ok final := by
      rw [ofEvents_append hbefore] at hparsed
      cases hplain : reached.events (Markup.eventsOfAll content) with
      | error cause =>
          rw [hplain] at hparsed
          cases hparsed
      | ok final => exact ⟨final, rfl⟩
    constructor
    · intro hitem markup hmarkup
      exact not_isInline_of_forall_eq hbefore hhidden hinline hplain hdepth hsame hitem hmarkup
    · intro hin markup hmarkup
      exact not_isBlock_of_forall_eq hbefore hhidden hinline hplain hdepth hsame hin hmarkup

def itemBegun : EventStream := [(.start (.list none), ⟨0, 3⟩), (.start .item, ⟨0, 3⟩)]

/-- A raised word leaves no trace after others in a list item, and does at the start of it. -/
theorem raisedWord_after_others :
    (∀ after, ofEvents #[97, 32, 98] (itemBegun ++ [(.text "a ", ⟨0, 2⟩)] ++
        (Markup.span .superscript ⟨2, 3⟩ [.leaf (.text "b") ⟨2, 3⟩] ⟨2, 3⟩).events ++ after) =
      ofEvents #[97, 32, 98] (itemBegun ++ [(.text "a ", ⟨0, 2⟩)] ++
        Markup.eventsOfAll [.leaf (.text "b") ⟨2, 3⟩] ++ after)) ∧
    ¬∀ after, WellNested (itemBegun ++
        (Markup.span .subscript ⟨0, 1⟩ [.leaf (.text "a") ⟨0, 1⟩] ⟨0, 1⟩).events ++ after) →
      ofEvents #[97, 32, 98] (itemBegun ++
        (Markup.span .subscript ⟨0, 1⟩ [.leaf (.text "a") ⟨0, 1⟩] ⟨0, 1⟩).events ++ after) =
      ofEvents #[97, 32, 98] (itemBegun ++ Markup.eventsOfAll [.leaf (.text "a") ⟨0, 1⟩] ++
        after) := by
  have hflattened : Flattened #[97, 32, 98] (itemBegun ++ [(.text "a ", ⟨0, 2⟩)])
      [.leaf (.text "b") ⟨2, 3⟩] := by
    intro reached hreached
    obtain ⟨builder, hbuilder, hframes⟩ : ∃ builder : Builder,
        Builder.events (itemBegun ++ [(.text "a ", ⟨0, 2⟩)]) { source := #[97, 32, 98] } =
          .ok builder ∧ builder.frames = [.textBlock 3, .node 2, .node 1] := ⟨_, rfl, rfl⟩
    cases hbuilder.symm.trans hreached
    constructor
    · intro hitem
      rw [Builder.isInItem, hframes] at hitem
      cases hitem
    · intro _ markup hmarkup
      cases List.mem_singleton.mp hmarkup
      rfl
  refine ⟨(pair_leaves_no_trace_iff _ _ (.inl rfl) _ _ _).1 hflattened, fun hsame => ?_⟩
  have hfalse := (pair_leaves_no_trace_iff _ _ (.inr rfl) _ _ _).2 ⟨2, rfl⟩ ⟨_, rfl⟩ hsame _ rfl
  cases hfalse.item (by rfl) _ List.mem_cons_self

end Parsed

/-- The kinds of the nodes, each with its parent. -/
def Tree.outline (tree : Tree) : List (Kind × Option NodeId) :=
  tree.entries.toList.map fun entry => (entry.node.kind, entry.parent)

namespace Parsed

def listInItem : EventStream :=
  [(.start (.list none), ⟨2, 3⟩), (.start .item, ⟨2, 3⟩), (.text "b", ⟨2, 3⟩), (.stop, ⟨2, 3⟩),
    (.stop, ⟨2, 3⟩), (.stop, ⟨0, 3⟩), (.stop, ⟨0, 3⟩)]

/-- A raised word at the start of a list item gets no text block, which would set it apart from the
list after it. -/
theorem raisedWord_unwrapped :
    ¬∀ (source : Source) (before after : EventStream) (tag : Tag) (opening closing : Segment)
      (content : List Markup), tag = .superscript ∨ tag = .subscript →
      WellNested (before ++ (Markup.span tag opening content closing).events ++ after) →
      ofEvents source (before ++ (Markup.span tag opening content closing).events ++ after) =
        ofEvents source (before ++ Markup.eventsOfAll content ++ after) := by
  intro hsame
  have hraised : (ofEvents #[97, 32, 98] (itemBegun ++
      (Markup.span .superscript ⟨0, 1⟩ [.leaf (.text "a") ⟨0, 1⟩] ⟨0, 1⟩).events ++
        listInItem)).toOption.map (·.tree.outline) =
      some [(.document, none), (.list, some 0), (.listItem, some 1), (.text, some 2),
        (.list, some 2), (.listItem, some 4), (.textBlock, some 5), (.text, some 6)] := by
    decide +kernel
  have hplain : (ofEvents #[97, 32, 98] (itemBegun ++
      Markup.eventsOfAll [.leaf (.text "a") ⟨0, 1⟩] ++ listInItem)).toOption.map (·.tree.outline) =
      some [(.document, none), (.list, some 0), (.listItem, some 1), (.textBlock, some 2),
        (.text, some 3), (.list, some 2), (.listItem, some 5), (.textBlock, some 6),
        (.text, some 7)] := by decide +kernel
  have hnested : WellNested (itemBegun ++
      (Markup.span .superscript ⟨0, 1⟩ [.leaf (.text "a") ⟨0, 1⟩] ⟨0, 1⟩).events ++ listInItem) :=
    rfl
  rw [hsame _ _ _ _ _ _ _ (.inl rfl) hnested, hplain] at hraised
  cases hraised

end Parsed

end CanonicalMarkdown.Document
