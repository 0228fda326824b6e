import CanonicalMarkdown.Proofs.Document.Safety

namespace CanonicalMarkdown.Document

/-! Nodes by what they can hold. -/

/-- Nodes that a tag opens around its content. -/
def Kind.isContainer : Kind → Bool
  | .heading | .paragraph | .blockquote | .list | .listItem | .strikethrough | .emphasis
  | .link => true
  | _ => false

/-- Nodes that are complete once they are made. -/
def Kind.isChildless : Kind → Bool
  | .thematicBreak | .autoLink | .image | .rawHtml | .text | .codeBlock | .fencedCodeBlock
  | .htmlBlock => true
  | _ => false

/-- Nodes made of what was captured, at the end of their tag. -/
def Kind.isCaptured : Kind → Bool
  | .codeBlock | .fencedCodeBlock | .htmlBlock | .image => true
  | _ => false

theorem Kind.not_isContainer_of_isCaptured {kind : Kind} (hkind : kind.isCaptured = true) :
    kind.isContainer = false := by
  cases kind <;> first | rfl | cases hkind

/-- The node a tag makes at its start. -/
def Tag.node? : Tag → Option Node
  | .paragraph => some .paragraph
  | .heading level => some (.heading level.toNat)
  | .blockquote => some .blockquote
  | .list start => some (.list start.isSome (start.getD 1))
  | .item => some .listItem
  | .emphasis => some (.emphasis 1)
  | .strong => some (.emphasis 2)
  | .strikethrough => some .strikethrough
  | .link type destination title =>
      some (if type.isAutomatic then .autoLink destination else .link destination title)
  | _ => none

namespace Event

/-- The nodes of an event that nothing captures. -/
def nodes (source : Source) (range : Segment) : Event → List Node
  | .start tag => tag.node?.toList
  | .text content => [.plainText (Builder.textSegment source content range)]
  | .code content => [.codeSpan, .string content]
  | .html _ | .inlineHtml _ => [.rawHtml [range]]
  | .rule => [.thematicBreak]
  | .footnoteReference _ | .inlineMath _ | .displayMath _ | .taskMarker _ => [.rawText range]
  | .stop | .softBreak | .hardBreak => []

/-- The nodes an event can make, text blocks aside. An end may complete what was captured, and a
line break that no text takes is a node of its own. -/
def Makes (source : Source) (range : Segment) (captured : Bool) (event : Event)
    (made : List Node) : Prop :=
  match event with
  | .stop => made = [] ∨ ∃ node : Node, made = [node] ∧ node.kind.isCaptured = true
  | .softBreak => made = [] ∨ made = [.lineBreak range.start false]
  | .hardBreak => made = [] ∨ made = [.lineBreak range.start true]
  | other => made = if captured then [] else other.nodes source range

end Event

/-! What a builder has made and what is still open, its buffers aside. -/

structure Stage where
  source : Source
  tree : Tree
  frames : List Frame

namespace Stage

def parent (stage : Stage) : NodeId := (stage.frames.findSome? Frame.id?).getD Tree.rootId

def target (stage : Stage) : Target :=
  ((stage.frames.find? (!·.isTransparent)).map Frame.target).getD .tree

/-- The stage with a new last child of the node that is open. -/
def added (stage : Stage) (node : Node) : Stage :=
  { stage with tree := stage.tree.appended stage.parent node }

/-- The stage with a frame inside all others. -/
def pushed (stage : Stage) (frame : Frame) : Stage :=
  { stage with frames := frame :: stage.frames }

/-- Everything that can happen to a stage at once, with the nodes that it adds. -/
inductive Move : List Node → Stage → Stage → Prop
  | push {stage : Stage} {frame : Frame} : frame.id? = none →
      frame.isTransparent = true ∨ stage.target = .tree →
      Move [] stage (stage.pushed frame)
  | pop {stage : Stage} {frame : Frame} : Move [] (stage.pushed frame) stage
  | add {stage : Stage} {node : Node} : node.kind.isChildless = true →
      Move [node] stage (stage.added node)
  | addCode {stage : Stage} (code : String) :
      Move [.codeSpan, .string code] stage
        { stage with
          tree := (stage.added .codeSpan).tree.appended stage.tree.size (.string code) }
  | openNode {stage : Stage} {node : Node} : node.kind.isContainer = true →
      stage.target = .tree → Move [node] stage ((stage.added node).pushed (.node stage.tree.size))
  | openTextBlock {stage : Stage} : stage.tree.node? stage.parent = some .listItem →
      stage.target = .tree →
      Move [.textBlock] stage
        ((stage.added .textBlock).pushed (.textBlock stage.tree.size))
  | breakLine {stage : Stage} {id : NodeId} {node broken : Node} {hard : Bool} :
      stage.tree.node? id = some node → Builder.broken? hard node = some broken →
      Move [] stage { stage with tree := stage.tree.set id broken }

inductive Moves : List Node → Stage → Stage → Prop
  | none {stage : Stage} : Moves [] stage stage
  | cons {first others : List Node} {start middle finish : Stage} :
      Move first start middle → Moves others middle finish → Moves (first ++ others) start finish

theorem Move.moves {made : List Node} {start finish : Stage} (hmove : Move made start finish) :
    Moves made start finish := by
  have hmoves := Moves.cons hmove .none
  rwa [List.append_nil] at hmoves

theorem Moves.append {first second : List Node} {start middle finish : Stage}
    (hfirst : Moves first start middle) (hsecond : Moves second middle finish) :
    Moves (first ++ second) start finish := by
  induction hfirst with
  | none => exact hsecond
  | cons hmove _ ih =>
      rw [List.append_assoc]
      exact .cons hmove (ih hsecond)

/-! Frames around which content is captured have none but transparent frames inside. -/

def Nested (frames : List Frame) : Prop :=
  frames.Pairwise fun inner outer => inner.isTransparent = true ∨ outer.target = .tree

theorem Frame.target_of_isTransparent {frame : Frame} (hframe : frame.isTransparent = true) :
    frame.target = .tree := by
  cases frame <;> first | rfl | cases hframe

theorem target_eq_tree_iff (stage : Stage) (hnested : Nested stage.frames) :
    stage.target = .tree ↔ ∀ frame ∈ stage.frames, frame.target = .tree := by
  obtain ⟨source, tree, frames⟩ := stage
  induction frames with
  | nil => simp [target]
  | cons frame frames ih =>
      obtain ⟨houter, hrest⟩ := List.pairwise_cons.mp hnested
      cases hframe : frame.isTransparent with
      | true =>
          have hskip : target ⟨source, tree, frame :: frames⟩ = target ⟨source, tree, frames⟩ := by
            simp [target, hframe]
          rw [hskip, ih hrest]
          simp [Frame.target_of_isTransparent hframe]
      | false =>
          have hhead : target ⟨source, tree, frame :: frames⟩ = frame.target := by
            simp [target, hframe]
          have houter : ∀ outer ∈ frames, outer.target = .tree := by simpa [hframe] using houter
          rw [hhead, List.forall_mem_cons]
          exact ⟨fun htarget => ⟨htarget, houter⟩, And.left⟩

theorem Move.nested {made : List Node} {start finish : Stage} (hmove : Move made start finish)
    (hnested : Nested start.frames) : Nested finish.frames := by
  have hpush : ∀ (stage : Stage) (frame : Frame), Nested stage.frames →
      frame.isTransparent = true ∨ stage.target = .tree → Nested (frame :: stage.frames) := by
    intro stage frame hnested hframe
    refine List.pairwise_cons.mpr ⟨fun outer houter => ?_, hnested⟩
    exact hframe.imp_right fun htarget => (target_eq_tree_iff stage hnested).mp htarget outer houter
  cases hmove with
  | push _ hframe => exact hpush _ _ hnested hframe
  | pop => exact (List.pairwise_cons.mp hnested).2
  | add | addCode | breakLine => exact hnested
  | openNode _ htarget | openTextBlock _ htarget => exact hpush _ _ hnested (.inr htarget)

end Stage

namespace Builder

open Stage

def stage (builder : Builder) : Stage := ⟨builder.source, builder.tree, builder.frames⟩

/-- The nodes come one after the other, after a text block if one has to be opened for them. -/
def Leads (start : Stage) (made : List Node) (outcome : Except BuildError Builder) : Prop :=
  ∀ next, outcome = .ok next → ∃ blocks, (blocks = [] ∨ blocks = [.textBlock]) ∧
    Moves (blocks ++ made) start next.stage

namespace Leads

variable {start middle : Stage} {made : List Node} {builder : Builder}

theorem of_moves (hmoves : Moves made start builder.stage) : Leads start made (.ok builder) := by
  intro next hnext
  cases hnext
  exact ⟨[], .inl rfl, hmoves⟩

theorem after (hmoves : Moves [] start middle) {outcome : Except BuildError Builder}
    (hleads : Leads middle made outcome) : Leads start made outcome := by
  intro next hnext
  obtain ⟨blocks, hblocks, hrest⟩ := hleads next hnext
  exact ⟨blocks, hblocks, hmoves.append hrest⟩

end Leads

theorem move_pop {builder : Builder} {frame : Frame} {rest : List Frame}
    (hframes : builder.frames = frame :: rest) :
    Move [] builder.stage ({ builder with frames := rest } : Builder).stage := by
  have hstage : builder.stage = ({ builder with frames := rest } : Builder).stage.pushed frame := by
    rw [stage, hframes]
    rfl
  rw [hstage]
  exact .pop

theorem moves_closeTextBlock (builder : Builder) :
    Moves [] builder.stage builder.closeTextBlock.stage := by
  unfold closeTextBlock
  split
  · next hframes => exact (move_pop hframes).moves
  · exact .none

theorem exists_of_isInItem {builder : Builder} (hitem : builder.isInItem = true) :
    ∃ id rest, builder.frames = .node id :: rest ∧ builder.tree.node? id = some .listItem := by
  unfold isInItem at hitem
  split at hitem
  · next id rest hframes =>
      obtain ⟨node, hnode, hkind⟩ := (Option.any_eq_true ..).mp hitem
      refine ⟨id, rest, hframes, ?_⟩
      cases node <;> first | exact hnode | cases hkind
  · cases hitem

/-- The builder that inline content is added to, with the text block it may have opened. -/
structure Prepared (builder middle : Builder) (blocks : List Node) : Prop where
  blocks_eq : blocks = [] ∨ blocks = [.textBlock]
  moves : Moves blocks builder.stage middle.stage
  target : builder.target = .tree → middle.target = .tree
  safe : middle.Safe

namespace Prepared

variable {builder middle : Builder} {blocks : List Node}
  (hprepared : Prepared builder middle blocks)
include hprepared

theorem leads {made : List Node} {next : Builder} (hmoves : Moves made middle.stage next.stage) :
    Leads builder.stage made (.ok next) := by
  intro other hother
  cases hother
  exact ⟨blocks, hprepared.blocks_eq, hprepared.moves.append hmoves⟩

end Prepared

namespace Safe

variable {builder : Builder} (hsafe : builder.Safe)
include hsafe

theorem append_eq (node : Node) :
    builder.append node = .ok (builder.tree.size,
      { builder with tree := builder.tree.appended builder.parent node }) := by
  rw [Builder.append, Builder.appendTo, Tree.append?_of_lt hsafe.parent_lt]

theorem leads_addBlock {node : Node} (hkind : node.kind.isChildless = true) :
    Leads builder.stage [node] (builder.addBlock node) := by
  rw [Builder.addBlock, hsafe.append_eq]
  exact .of_moves (Move.add hkind).moves

theorem prepared :
    ∃ middle blocks, builder.inlineParent = .ok (middle.parent, middle) ∧
      Prepared builder middle blocks := by
  have hyields := hsafe.inlineParent
  cases hitem : builder.isInItem with
  | false =>
      refine ⟨builder, [], ?_, .inl rfl, .none, id, hsafe⟩
      rw [Builder.inlineParent, hitem]
      rfl
  | true =>
      obtain ⟨id, rest, hframes, hnode⟩ := exists_of_isInItem hitem
      have hparent : builder.stage.parent = id := by
        rw [Stage.parent, stage, hframes]
        rfl
      have htarget : builder.stage.target = .tree := by
        rw [Stage.target, stage, hframes]
        rfl
      have hinline : builder.inlineParent = .ok (builder.tree.size,
          { builder with tree := builder.tree.appended builder.parent .textBlock }.push
            (.textBlock builder.tree.size)) := by
        rw [Builder.inlineParent, hitem, if_pos rfl, hsafe.append_eq]
        rfl
      rw [hinline] at hyields ⊢
      obtain ⟨other, next, heq, hnext, -⟩ := hyields
      cases heq
      have hmove : Move [.textBlock] builder.stage _ := .openTextBlock (hparent ▸ hnode) htarget
      refine ⟨_, [.textBlock], rfl, .inr rfl, ?_, fun _ => rfl, hnext⟩
      exact hmove.moves

theorem appendInline_eq (node : Node) :
    ∃ middle blocks, Prepared builder middle blocks ∧
      builder.appendInline node = .ok (middle.tree.size,
        { middle with tree := middle.tree.appended middle.parent node }) := by
  obtain ⟨middle, blocks, hparent, hprepared⟩ := hsafe.prepared
  refine ⟨middle, blocks, hprepared, ?_⟩
  rw [Builder.appendInline, hparent]
  exact hprepared.safe.append_eq node

theorem leads_addInline {node : Node} (hkind : node.kind.isChildless = true) :
    Leads builder.stage [node] (builder.addInline node) := by
  obtain ⟨middle, blocks, hprepared, happend⟩ := hsafe.appendInline_eq node
  rw [Builder.addInline, happend]
  exact hprepared.leads (Move.add hkind).moves

/-! Tags. -/

section

variable (htarget : builder.target = .tree)
include htarget

theorem leads_openBlock {node : Node} (hkind : node.kind.isContainer = true) :
    Leads builder.stage [node] (builder.openBlock node) := by
  have hmove : Move [node] builder.stage _ := .openNode hkind htarget
  rw [Builder.openBlock, hsafe.append_eq]
  exact .of_moves hmove.moves

theorem leads_openInline {node : Node} (hkind : node.kind.isContainer = true) :
    Leads builder.stage [node] (builder.openInline node) := by
  obtain ⟨middle, blocks, hprepared, happend⟩ := hsafe.appendInline_eq node
  have hmove : Move [node] middle.stage _ := .openNode hkind (hprepared.target htarget)
  rw [Builder.openInline, happend]
  exact hprepared.leads hmove.moves

theorem leads_autoLink (destination : String) :
    Leads builder.stage [.autoLink destination]
      (builder.addInline (.autoLink destination) >>= fun next => return next.push .autoLink) := by
  obtain ⟨middle, blocks, hprepared, happend⟩ := hsafe.appendInline_eq (.autoLink destination)
  have hadd : Move [.autoLink destination] middle.stage _ := .add rfl
  have hpush : Move [] (middle.stage.added (.autoLink destination))
      ((middle.stage.added (.autoLink destination)).pushed .autoLink) :=
    .push rfl (.inr (hprepared.target htarget))
  rw [Builder.addInline, happend]
  exact hprepared.leads (hadd.moves.append hpush.moves)

omit hsafe in
theorem leads_push {frame : Frame} {next : Builder} (hid : frame.id? = none)
    (hnext : next.stage = builder.stage) : Leads builder.stage [] (.ok (next.push frame)) := by
  have hpush : Move [] next.stage (next.push frame).stage := .push hid (.inr (hnext ▸ htarget))
  rw [hnext] at hpush
  exact .of_moves hpush.moves

theorem leads_openTag (tag : Tag) :
    Leads builder.stage tag.node?.toList (builder.openTag tag) := by
  cases tag with
  | paragraph | heading | blockquote | list | item => exact hsafe.leads_openBlock htarget rfl
  | emphasis | strong | strikethrough => exact hsafe.leads_openInline htarget rfl
  | link type destination title =>
      simp only [Builder.openTag, Tag.node?]
      split
      · exact hsafe.leads_autoLink htarget destination
      · exact hsafe.leads_openInline htarget rfl
  | indentedCode | fencedCode | htmlBlock | image | frontMatter | footnoteDefinition | table
  | tableHead | tableRow | tableCell | definitionList | definitionTitle | definitionDetail
  | superscript | subscript => exact leads_push htarget rfl rfl

end

end Safe

/-- A builder that any events can have led to, as far as the next one asks. -/
structure Ready (builder : Builder) : Prop where
  safe : builder.Safe
  nested : Nested builder.frames

namespace Ready

variable {builder : Builder} (hready : builder.Ready)
include hready

theorem closeTextBlock : builder.closeTextBlock.Ready := by
  refine ⟨hready.safe.closeTextBlock, ?_⟩
  have hnested := hready.nested
  unfold Builder.closeTextBlock
  split
  · next hframes =>
      rw [hframes] at hnested
      exact (List.pairwise_cons.mp hnested).2
  · exact hnested

/-- A text block is not open inside of anything that captures. -/
theorem target_closeTextBlock (htarget : builder.target = .tree) :
    builder.closeTextBlock.target = .tree := by
  have hall := (target_eq_tree_iff builder.stage hready.nested).mp htarget
  refine (target_eq_tree_iff builder.closeTextBlock.stage hready.closeTextBlock.nested).mpr ?_
  intro frame hframe
  apply hall
  unfold Builder.closeTextBlock at hframe
  split at hframe
  · next hframes =>
      rw [stage, hframes]
      exact List.mem_cons_of_mem _ hframe
  · exact hframe

theorem leads_start (tag : Tag) :
    Leads builder.stage (if builder.target != .tree then [] else tag.node?.toList)
      (builder.start tag) := by
  unfold Builder.start
  split
  · have hpush : Move [] builder.stage (builder.push .transparent).stage := .push rfl (.inl rfl)
    exact .of_moves hpush.moves
  · next htarget =>
      have htarget : builder.target = .tree := by simpa using htarget
      split
      · exact (hready.closeTextBlock.safe.leads_openTag (hready.target_closeTextBlock htarget)
          tag).after (moves_closeTextBlock builder)
      · exact hready.safe.leads_openTag htarget tag

/-! Ends. -/

theorem popped {frame : Frame} {rest : List Frame} (hframes : builder.frames = frame :: rest) :
    Ready { builder with frames := rest } where
  safe := hready.safe.of_frames rfl fun other hother => by simp [hframes, hother]
  nested := by
    have hnested := hready.nested
    rw [hframes] at hnested
    exact (List.pairwise_cons.mp hnested).2

theorem leads_closeFrame (frame : Frame) :
    ∃ made, (made = [] ∨ ∃ node : Node, made = [node] ∧ node.kind.isCaptured = true) ∧
      Leads builder.stage made (builder.closeFrame frame) := by
  have hsafe := hready.safe
  cases frame with
  | node | textBlock | autoLink | transparent => exact ⟨[], .inl rfl, .of_moves .none⟩
  | indentedCode | fencedCode | html =>
      have hlines : ({ builder with lines := [] } : Builder).Safe :=
        hsafe.of_frames rfl fun _ hframe => hframe
      exact ⟨_, .inr ⟨_, rfl, rfl⟩, hlines.leads_addBlock rfl⟩
  | image =>
      have halt : ({ builder with alt := "" } : Builder).Safe :=
        hsafe.of_frames rfl fun _ hframe => hframe
      exact ⟨_, .inr ⟨_, rfl, rfl⟩, halt.leads_addInline rfl⟩
  | frontMatter =>
      refine ⟨[], .inl rfl, ?_⟩
      simp only [Builder.closeFrame, Builder.readMetadata]
      split
      · exact .of_moves .none
      · split
        · exact .of_moves .none
        · intro next hnext
          cases hnext

theorem leads_stop :
    ∃ made, (made = [] ∨ ∃ node : Node, made = [node] ∧ node.kind.isCaptured = true) ∧
      Leads builder.stage made builder.stop := by
  have hclosed := moves_closeTextBlock builder
  unfold Builder.stop
  simp only
  split
  · exact ⟨[], .inl rfl, .of_moves hclosed⟩
  · next frame rest hframes =>
      obtain ⟨made, hmade, hleads⟩ := (hready.closeTextBlock.popped hframes).leads_closeFrame frame
      exact ⟨made, hmade, hleads.after (hclosed.append (move_pop hframes).moves)⟩

/-! Content. -/

omit hready in
theorem leads_captured (htarget : builder.target ≠ .tree) (leaf : Leaf) (range : Segment) :
    Leads builder.stage [] (builder.event leaf.event range) := by
  have hstage : (builder.captured builder.target [(leaf, range)]).stage = builder.stage := by
    cases builder.target <;> rfl
  rw [event_captured rfl htarget]
  apply Leads.of_moves
  rw [hstage]
  exact .none

section

variable (htarget : builder.target = .tree)
include htarget

theorem leads_codeSpan (code : String) :
    Leads builder.stage [.codeSpan, .string code] (builder.codeSpan code) := by
  obtain ⟨middle, blocks, hprepared, happend⟩ := hready.safe.appendInline_eq .codeSpan
  have hspan := Tree.append?_of_lt
    (Tree.size_lt_appended hprepared.safe.parent_lt .codeSpan) (.string code)
  have hmove : Move [.codeSpan, .string code] middle.stage _ := .addCode code
  simp only [Builder.codeSpan, htarget, happend, ok_bind, appendTo, hspan]
  exact hprepared.leads hmove.moves

theorem leads_lineBreak (hard : Bool) (range : Segment) :
    ∃ made, (made = [] ∨ made = [.lineBreak range.start hard]) ∧
      Leads builder.stage made (builder.lineBreak hard range) := by
  obtain ⟨middle, blocks, hparent, hprepared⟩ := hready.safe.prepared
  simp only [Builder.lineBreak, htarget, hparent, ok_bind]
  split
  · next id broken hlast hbroken =>
      rw [hlast, Option.bind_some] at hbroken
      obtain ⟨node, hnode, hbroken⟩ := Option.bind_eq_some_iff.mp hbroken
      have hmove : Move [] middle.stage _ := .breakLine hnode hbroken
      exact ⟨[], .inl rfl, hprepared.leads hmove.moves⟩
  · have hmove : Move [.lineBreak range.start hard] middle.stage _ := .add rfl
    rw [appendTo, Tree.append?_of_lt hprepared.safe.parent_lt]
    exact ⟨_, .inr rfl, hprepared.leads hmove.moves⟩

theorem leads_leaf (leaf : Leaf) (range : Segment) :
    ∃ made, leaf.event.Makes builder.source range false made ∧
      Leads builder.stage made (builder.event leaf.event range) := by
  have hsafe := hready.safe
  cases leaf with
  | text content =>
      refine ⟨_, rfl, ?_⟩
      simp only [Leaf.event, event, Builder.text, htarget]
      exact hsafe.leads_addInline rfl
  | code content => exact ⟨_, rfl, hready.leads_codeSpan htarget content⟩
  | html content | inlineHtml content =>
      refine ⟨_, rfl, ?_⟩
      simp only [Leaf.event, event, Builder.html, htarget]
      exact hsafe.leads_addInline rfl
  | softBreak => exact hready.leads_lineBreak htarget false range
  | hardBreak => exact hready.leads_lineBreak htarget true range
  | rule =>
      refine ⟨_, rfl, ?_⟩
      simp only [Leaf.event, event, Builder.rule, htarget, beq_self_eq_true, if_true]
      exact (hsafe.closeTextBlock.leads_addBlock rfl).after (moves_closeTextBlock builder)
  | footnoteReference | inlineMath | displayMath | taskMarker =>
      refine ⟨_, rfl, ?_⟩
      simp only [Leaf.event, event, Builder.raw, htarget, beq_self_eq_true, if_true]
      exact hsafe.leads_addInline rfl

end

/-- Every event is a sequence of moves, which make its own nodes and no others. -/
theorem leads_event (event : Event) (range : Segment) :
    ∃ made, event.Makes builder.source range (builder.target != .tree) made ∧
      Leads builder.stage made (builder.event event range) := by
  rcases event.eq_start_or_stop_or_leaf with ⟨tag, rfl⟩ | rfl | ⟨leaf, rfl⟩
  · exact ⟨_, rfl, hready.leads_start tag⟩
  · exact hready.leads_stop
  · by_cases htarget : builder.target = .tree
    · rw [htarget]
      exact hready.leads_leaf htarget leaf range
    · have hcaptured : (builder.target != .tree) = true := by simpa using htarget
      refine ⟨[], ?_, leads_captured htarget leaf range⟩
      rw [hcaptured]
      cases leaf with
      | softBreak | hardBreak => exact .inl rfl
      | _ => rfl

end Ready

end Builder

end CanonicalMarkdown.Document
