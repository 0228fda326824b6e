import CanonicalMarkdown.Proofs.Document.Arrangement

namespace CanonicalMarkdown.Document

/-! The nodes of a tree in the order in which they were made. -/

/-- The node without the line breaks after its text, which may come later. -/
def Node.unbroken : Node → Node
  | .text segment raw _ _ => .text segment raw false false
  | node => node

theorem Node.eq_of_unbroken {node other : Node} (hnode : node.unbroken = other)
    (hkind : other.kind ≠ .text) : node = other := by
  cases node with
  | text =>
      subst hnode
      exact absurd rfl hkind
  | _ => exact hnode

theorem Node.unbroken_eq {node : Node} (hkind : node.kind ≠ .text) : node.unbroken = node := by
  cases node with
  | text => exact absurd rfl hkind
  | _ => rfl

theorem Node.kind_unbroken (node : Node) : node.unbroken.kind = node.kind := by
  cases node <;> rfl

namespace Tree

def listing (tree : Tree) : List Node := tree.entries.toList.map fun entry => entry.node.unbroken

theorem length_listing (tree : Tree) : tree.listing.length = tree.size := by
  simp [listing, size]

theorem getElem?_listing (tree : Tree) (id : NodeId) :
    tree.listing[id]? = (tree.node? id).map Node.unbroken := by
  simp [listing, node?, get?, Function.comp_def]

theorem listing_append {tree grown : Tree} {parent id : NodeId} {node : Node}
    (happend : tree.append? parent node = some (id, grown)) :
    grown.listing = tree.listing ++ [node.unbroken] := by
  obtain ⟨-, hid, -⟩ := append?_eq_some happend
  apply List.ext_getElem?
  intro other
  rw [getElem?_listing, node?_append happend]
  rcases Nat.lt_trichotomy other id with hlt | heq | hgt
  · have hother : other < tree.listing.length := by rwa [length_listing, ← hid]
    rw [if_neg (Nat.ne_of_lt hlt), List.getElem?_append_left hother, getElem?_listing]
  · rw [if_pos heq, heq, hid, ← length_listing, List.getElem?_concat_length]
    rfl
  · have hnone : tree.node? other = none := by
      rw [node?, get?_eq_none (hid ▸ Nat.le_of_lt hgt), Option.map_none]
    have hlength : (tree.listing ++ [node.unbroken]).length ≤ other := by
      rw [List.length_append, length_listing, ← hid]
      exact hgt
    rw [if_neg (Nat.ne_of_gt hgt), hnone, List.getElem?_eq_none hlength]
    rfl

theorem listing_set {tree : Tree} {id : NodeId} {node other : Node}
    (hnode : tree.node? id = some node) (hother : other.unbroken = node.unbroken) :
    (tree.set id other).listing = tree.listing := by
  apply List.ext_getElem?
  intro child
  rw [getElem?_listing, getElem?_listing, node?_set, Option.map_map]
  by_cases hchild : child = id
  · rw [hchild, hnode]
    simp [hother]
  · congr 1
    funext own
    simp [hchild]

end Tree

namespace Stage

theorem Move.listing {made : List Node} {start finish : Stage} (hmove : Move made start finish)
    (hsound : start.Sound) :
    finish.tree.listing = start.tree.listing ++ made.map Node.unbroken := by
  cases hmove with
  | push | pop => simp [pushed]
  | @add _ node _ | @openNode _ node _ _ => exact Tree.listing_append (hsound.append?_eq node)
  | openTextBlock => exact Tree.listing_append (hsound.append?_eq .textBlock)
  | addCode code =>
      have hspan := Tree.listing_append (hsound.append?_eq .codeSpan)
      have hlt : start.tree.size < (start.added .codeSpan).tree.size :=
        Tree.size_lt_appended hsound.parent_lt .codeSpan
      have hcode := Tree.listing_append (Tree.append?_of_lt hlt (.string code))
      rw [hspan, List.append_assoc] at hcode
      exact hcode
  | breakLine hnode hbroken =>
      obtain ⟨segment, soft, hardBefore, rfl, rfl⟩ := broken?_eq_some hbroken
      rw [List.map_nil, List.append_nil]
      exact Tree.listing_set hnode rfl

/-- A frame is new only around a new node. -/
theorem Move.size_le_of_frame {made : List Node} {start finish : Stage}
    (hmove : Move made start finish) {frame : Frame} (hframe : frame ∈ finish.frames) :
    frame ∈ start.frames ∨ ∀ id, frame.id? = some id → start.tree.size ≤ id := by
  cases hmove with
  | push hid _ =>
      rcases List.mem_cons.mp hframe with rfl | hframe
      · right
        intro id hsome
        cases hid.symm.trans hsome
      · exact .inl hframe
  | pop => exact .inl (.tail _ hframe)
  | add | addCode | breakLine => exact .inl hframe
  | openNode | openTextBlock =>
      rcases List.mem_cons.mp hframe with rfl | hframe
      · right
        rintro id ⟨rfl⟩
        exact Nat.le_refl _
      · exact .inl hframe

namespace Moves

variable {made : List Node} {start finish : Stage} (hmoves : Moves made start finish)
include hmoves

theorem nested (hnested : Nested start.frames) : Nested finish.frames := by
  induction hmoves with
  | none => exact hnested
  | cons hmove _ ih => exact ih (hmove.nested hnested)

variable (hsound : start.Sound)
include hsound

theorem sound : finish.Sound := by
  induction hmoves with
  | none => exact hsound
  | cons hmove _ ih => exact ih (hmove.sound hsound)

theorem listing : finish.tree.listing = start.tree.listing ++ made.map Node.unbroken := by
  induction hmoves with
  | none => simp
  | cons hmove _ ih =>
      rw [ih (hmove.sound hsound), hmove.listing hsound, List.map_append, List.append_assoc]

theorem size_eq : finish.tree.size = start.tree.size + made.length := by
  rw [← Tree.length_listing, hmoves.listing hsound, List.length_append, Tree.length_listing,
    List.length_map]

theorem size_le_of_frame {frame : Frame} (hframe : frame ∈ finish.frames) :
    frame ∈ start.frames ∨ ∀ id, frame.id? = some id → start.tree.size ≤ id := by
  induction hmoves with
  | none => exact .inl hframe
  | @cons first others start middle finish hmove hrest ih =>
      rcases ih (hmove.sound hsound) hframe with hmiddle | hnew
      · exact hmove.size_le_of_frame hmiddle
      · right
        intro id hid
        have hsize := hmove.moves.size_eq hsound
        have hle := hnew id hid
        omega

/-- What a node holds does not change, line breaks aside. -/
theorem unbroken_node? {id : NodeId} (hid : id < start.tree.size) :
    (finish.tree.node? id).map Node.unbroken = (start.tree.node? id).map Node.unbroken := by
  rw [← Tree.getElem?_listing, hmoves.listing hsound, ← Tree.getElem?_listing,
    List.getElem?_append_left (by rwa [Tree.length_listing])]

theorem kind_node? {id : NodeId} (hid : id < start.tree.size) :
    (finish.tree.node? id).map Node.kind = (start.tree.node? id).map Node.kind := by
  have hkind := congrArg (Option.map Node.kind) (hmoves.unbroken_node? hsound hid)
  simpa only [Option.map_map, Function.comp_def, Node.kind_unbroken] using hkind

theorem node?_eq {id : NodeId} {node : Node} (hnode : start.tree.node? id = some node)
    (hkind : node.kind ≠ .text) : finish.tree.node? id = some node := by
  have hsame := hmoves.unbroken_node? hsound (Tree.lt_of_node? hnode)
  rw [hnode, Option.map_some] at hsame
  obtain ⟨own, hown, heq⟩ := Option.map_eq_some_iff.mp hsame
  rw [Node.unbroken_eq hkind] at heq
  rw [hown, Node.eq_of_unbroken heq hkind]

theorem mem_made {id : NodeId} {node : Node} (hid : start.tree.size ≤ id)
    (hnode : finish.tree.node? id = some node) (hkind : node.kind ≠ .text) : node ∈ made := by
  have hlisted : finish.tree.listing[id]? = some node := by
    rw [Tree.getElem?_listing, hnode, Option.map_some, Node.unbroken_eq hkind]
  rw [hmoves.listing hsound, List.getElem?_append_right (by rwa [Tree.length_listing])] at hlisted
  obtain ⟨own, hown, heq⟩ := List.mem_map.mp (List.mem_of_getElem? hlisted)
  exact Node.eq_of_unbroken heq hkind ▸ hown

end Moves

end Stage

/-! What each event of a run starts from and makes. -/

namespace Event

variable {source : Source} {range : Segment} {event : Event} {node : Node}

theorem exists_tag_of_mem_nodes (hnode : node ∈ event.nodes source range)
    (hkind : node.kind.isContainer = true) :
    ∃ tag, event = .start tag ∧ tag.node? = some node := by
  cases event with
  | start tag => exact ⟨tag, rfl, Option.mem_toList.mp hnode⟩
  | stop | softBreak | hardBreak => cases hnode
  | code content =>
      rcases List.mem_pair.mp hnode with rfl | rfl <;> cases hkind
  | text | html | inlineHtml | rule | footnoteReference | inlineMath | displayMath | taskMarker =>
      cases List.mem_singleton.mp hnode
      cases hkind

theorem Makes.exists_tag {captured : Bool} {made : List Node}
    (hmakes : event.Makes source range captured made) (hnode : node ∈ made)
    (hkind : node.kind.isContainer = true) :
    ∃ tag, event = .start tag ∧ tag.node? = some node := by
  cases event with
  | stop =>
      rcases hmakes with rfl | ⟨other, rfl, hcaptured⟩
      · cases hnode
      · cases List.mem_singleton.mp hnode
        rw [Kind.not_isContainer_of_isCaptured hcaptured] at hkind
        cases hkind
  | softBreak | hardBreak =>
      rcases hmakes with rfl | rfl
      · cases hnode
      · cases List.mem_singleton.mp hnode
        cases hkind
  | _ =>
      cases hmakes
      cases captured with
      | true => cases hnode
      | false =>
          rw [if_neg Bool.false_ne_true] at hnode
          exact exists_tag_of_mem_nodes hnode hkind

end Event

/-- The event opened the frame: around the node of its tag, or around a text block for its inline
content. -/
def Frame.OpenedBy (event : Event) (node : Node) : Frame → Prop
  | .node _ => node.kind.isContainer = true ∧ ∃ tag, event = .start tag ∧ tag.node? = some node
  | .textBlock _ => node = .textBlock
  | _ => False

theorem Frame.OpenedBy.kind_ne_text {event : Event} {node : Node} {frame : Frame}
    (hopened : frame.OpenedBy event node) : node.kind ≠ .text := by
  intro hkind
  cases frame with
  | node => simp [OpenedBy, hkind, Kind.isContainer] at hopened
  | textBlock =>
      cases hopened
      cases hkind
  | _ => cases hopened

namespace Builder

open Stage

/-- A builder as any events can have left it. -/
structure Lawful (builder : Builder) : Prop where
  ready : builder.Ready
  sound : builder.stage.Sound

theorem lawful_new (source : Source) : Lawful { source } where
  ready := ⟨safe_new source, .nil⟩
  sound := by
    refine ⟨.new, rfl, ?_, ?_, by simp [stage]⟩
    · intro id parent node above hparent
      cases (Tree.parentOf_new id).symm.trans hparent
    · intro id hspan
      rw [stage, Tree.node?, Tree.get?_new] at hspan
      split at hspan <;> cases hspan

/-- The event that made a node. -/
def origin? : EventStream → Builder → NodeId → Option Event
  | [], _, _ => none
  | (event, range) :: rest, builder, id =>
      match builder.event event range with
      | .error _ => none
      | .ok next =>
          if builder.tree.size ≤ id ∧ id < next.tree.size then some event
          else next.origin? rest id

theorem events_cons_eq_ok {builder final : Builder} {event : Event} {range : Segment}
    {rest : EventStream} :
    builder.events ((event, range) :: rest) = .ok final ↔
      ∃ next, builder.event event range = .ok next ∧ next.events rest = .ok final := by
  rw [events]
  cases builder.event event range with
  | error cause => simp [bind, Except.bind]
  | ok next => simp [bind, Except.bind]

namespace Lawful

variable {builder next final : Builder} (hlawful : builder.Lawful)
include hlawful

theorem moves {event : Event} {range : Segment} (hevent : builder.event event range = .ok next) :
    ∃ blocks made, (blocks = [] ∨ blocks = [.textBlock]) ∧
      event.Makes builder.source range (builder.target != .tree) made ∧
      Moves (blocks ++ made) builder.stage next.stage := by
  obtain ⟨made, hmakes, hleads⟩ := hlawful.ready.leads_event event range
  obtain ⟨blocks, hblocks, hmoves⟩ := hleads next hevent
  exact ⟨blocks, made, hblocks, hmakes, hmoves⟩

theorem event {event : Event} {range : Segment} (hevent : builder.event event range = .ok next) :
    next.Lawful := by
  obtain ⟨blocks, made, -, -, hmoves⟩ := hlawful.moves hevent
  have hkeeps := hlawful.ready.safe.event event range
  rw [hevent] at hkeeps
  exact ⟨⟨hkeeps, hmoves.nested hlawful.ready.nested⟩, hmoves.sound hlawful.sound⟩

theorem exists_origin {event : Event} {range : Segment}
    (hevent : builder.event event range = .ok next) {frame : Frame} (hframe : frame ∈ next.frames)
    {id : NodeId} (hid : frame.id? = some id) :
    frame ∈ builder.frames ∨ builder.tree.size ≤ id ∧ id < next.tree.size ∧
      ∃ node, next.tree.node? id = some node ∧ frame.OpenedBy event node := by
  obtain ⟨blocks, made, hblocks, hmakes, hmoves⟩ := hlawful.moves hevent
  rcases hmoves.size_le_of_frame hlawful.sound hframe with hold | hnew
  · exact .inl hold
  · obtain ⟨node, hnode, hopens⟩ := (hmoves.sound hlawful.sound).frames frame hframe id hid
    refine .inr ⟨hnew id hid, Tree.lt_of_node? hnode, node, hnode, ?_⟩
    cases frame with
    | node =>
        have hkind : node.kind ≠ .text := fun htext => by
          simp [Frame.Opens, htext, Kind.isContainer] at hopens
        have hmade : node ∈ made := by
          rcases List.mem_append.mp (hmoves.mem_made hlawful.sound (hnew id hid) hnode hkind)
            with hblock | hmade
          · rcases hblocks with rfl | rfl
            · cases hblock
            · cases List.mem_singleton.mp hblock
              cases hopens
          · exact hmade
        exact ⟨hopens, hmakes.exists_tag hmade hopens⟩
    | textBlock => exact hopens
    | _ => cases hid

/-! Whole streams. -/

section

variable {stream : EventStream} (hevents : builder.events stream = .ok final)
include hevents

theorem events : final.Lawful := by
  induction stream generalizing builder with
  | nil =>
      cases hevents
      exact hlawful
  | cons head rest ih =>
      obtain ⟨next, hevent, hrest⟩ := events_cons_eq_ok.mp hevents
      exact ih (hlawful.event hevent) hrest

theorem moves_events : ∃ made, Moves made builder.stage final.stage := by
  induction stream generalizing builder with
  | nil =>
      cases hevents
      exact ⟨[], .none⟩
  | cons head rest ih =>
      obtain ⟨next, hevent, hrest⟩ := events_cons_eq_ok.mp hevents
      obtain ⟨blocks, made, -, -, hfirst⟩ := hlawful.moves hevent
      obtain ⟨others, hothers⟩ := ih (hlawful.event hevent) hrest
      exact ⟨_, hfirst.append hothers⟩

theorem frames_events {frame : Frame} (hframe : frame ∈ final.frames) {id : NodeId}
    (hid : frame.id? = some id) :
    frame ∈ builder.frames ∨ builder.tree.size ≤ id ∧ ∃ event node,
      builder.origin? stream id = some event ∧ final.tree.node? id = some node ∧
        frame.OpenedBy event node := by
  induction stream generalizing builder with
  | nil =>
      cases hevents
      exact .inl hframe
  | cons head rest ih =>
      obtain ⟨next, hevent, hrest⟩ := events_cons_eq_ok.mp hevents
      obtain ⟨blocks, made, -, -, hmoves⟩ := hlawful.moves hevent
      have hsize := hmoves.size_eq hlawful.sound
      have hle : builder.tree.size ≤ next.tree.size := hsize ▸ Nat.le_add_right ..
      -- The frame was open after the first event already, or a later event opened it.
      rcases ih (hlawful.event hevent) hrest with hnext | ⟨hnew, event, node, horigin, hnode⟩
      · rcases hlawful.exists_origin hevent hnext hid with hold | ⟨hnew, hlt, node, hnode, hopened⟩
        · exact .inl hold
        · have hkind : node.kind ≠ .text := hopened.kind_ne_text
          refine .inr ⟨hnew, head.1, node, ?_, ?_, hopened⟩
          · simp only [origin?, hevent]
            rw [if_pos ⟨hnew, hlt⟩]
          · obtain ⟨others, hothers⟩ := (hlawful.event hevent).moves_events hrest
            exact hothers.node?_eq (hlawful.event hevent).sound hnode hkind
      · refine .inr ⟨Nat.le_trans hle hnew, event, node, ?_, hnode⟩
        simp only [origin?, hevent]
        rw [if_neg fun hnow => Nat.not_lt_of_le hnew hnow.2]
        exact horigin

end

end Lawful

end Builder

/-! Documents that were read. -/

/-- The nodes and links that reading can make. -/
structure Tree.WellFormed (tree : Tree) : Prop where
  emphasis : ∀ id level, tree.node? id = some (.emphasis level) → level = 1 ∨ level = 2
  heading : ∀ id level, tree.node? id = some (.heading level) → 1 ≤ level ∧ level ≤ 6
  codeSpan : ∀ id, tree.node? id = some .codeSpan →
    ∃ child value, tree.children id = [child] ∧ tree.node? child = some (.string value)
  string : ∀ id value, tree.node? id = some (.string value) →
    ∃ parent, tree.parentOf id = some parent ∧ tree.node? parent = some .codeSpan
  textBlock : ∀ id, tree.node? id = some .textBlock →
    ∃ parent, tree.parentOf id = some parent ∧ tree.node? parent = some .listItem
  childless : ∀ id node, tree.node? id = some node → node.kind.isChildless = true →
    tree.children id = []
  raw : ∀ id segment soft hard, tree.node? id = some (.text segment true soft hard) →
    soft = false ∧ hard = false
  closure : ∀ id lines closure, tree.node? id = some (.htmlBlock lines closure) → closure = none

theorem Stage.Sound.wellFormed {stage : Stage} (hsound : stage.Sound)
    (hbuilt : ∀ id node, stage.tree.node? id = some node → node.IsBuilt) :
    stage.tree.WellFormed := by
  have hlinked := hsound.grown.linked
  have habove : ∀ id node, stage.tree.node? id = some node → node ≠ .document →
      ∃ parent above, stage.tree.parentOf id = some parent ∧
        stage.tree.node? parent = some above ∧ above.kind.admits node.kind = true := by
    intro id node hnode hne
    have hroot : id ≠ Tree.rootId := by
      rintro rfl
      exact hne (Option.some.inj (hnode.symm.trans hsound.root))
    obtain ⟨parent, hparent⟩ := hlinked.exists_parent id (Tree.lt_of_node? hnode) hroot
    obtain ⟨above, habove⟩ := hlinked.exists_node?_of_parentOf hparent
    exact ⟨parent, above, hparent, habove, hsound.stands id parent node above hparent hnode habove⟩
  constructor
  · exact fun id level hnode => hbuilt id _ hnode
  · exact fun id level hnode => hbuilt id _ hnode
  · intro id hnode
    obtain ⟨value, hchildren, hvalue⟩ := hsound.spans id hnode
    exact ⟨id + 1, value, hchildren, hvalue⟩
  · intro id value hnode
    obtain ⟨parent, above, hparent, habove, hadmits⟩ := habove id _ hnode (by simp)
    have hkind := Kind.eq_codeSpan_of_admits hadmits
    have hspan : above = .codeSpan := by cases above <;> first | rfl | cases hkind
    exact ⟨parent, hparent, hspan ▸ habove⟩
  · intro id hnode
    obtain ⟨parent, above, hparent, habove, hadmits⟩ := habove id _ hnode (by simp)
    have hkind := Kind.eq_listItem_of_admits hadmits
    have hitem : above = .listItem := by cases above <;> first | rfl | cases hkind
    exact ⟨parent, hparent, hitem ▸ habove⟩
  · intro id node hnode hkind
    rw [hlinked.children_eq, List.eq_nil_iff_forall_not_mem]
    intro child hchild
    have hparent := Tree.mem_offspring.mp hchild
    obtain ⟨own, hown⟩ := Tree.exists_node?_of_lt (Tree.lt_of_parentOf hparent)
    have hadmits := hsound.stands child id own node hparent hown hnode
    rw [Kind.admits_eq_false hkind] at hadmits
    cases hadmits
  · exact fun id segment soft hard hnode => hbuilt id _ hnode rfl
  · exact fun id lines closure hnode => hbuilt id _ hnode

/-- Whatever the events and their order, reading fails for its front matter alone and never for a
missing node; what is open at the end are nodes that the stream itself opened. -/
theorem Builder.safe_on_every_stream (source : Source) (stream : EventStream) :
    match Builder.events stream { source } with
    | .error error => ∃ cause, error = .frontMatter cause
    | .ok builder =>
        Parsed.ofEvents source stream = .ok ⟨builder.tree, builder.metadata⟩ ∧
        (∀ frame ∈ builder.frames, ∀ id, frame.id? = some id → ∃ event node,
          Builder.origin? stream { source } id = some event ∧
            builder.tree.node? id = some node ∧ frame.OpenedBy event node) ∧
        builder.tree.WellFormed := by
  have hnew := Builder.lawful_new source
  have hkeeps := hnew.ready.safe.events stream
  cases hevents : Builder.events stream { source } with
  | error error =>
      rw [hevents] at hkeeps
      exact hkeeps
  | ok builder =>
      refine ⟨?_, ?_, ?_⟩
      · rw [Parsed.ofEvents, hevents]
        rfl
      · intro frame hframe id hid
        rcases hnew.frames_events hevents hframe hid with hold | ⟨-, hopened⟩
        · cases hold
        · exact hopened
      · have hfinal := hnew.events hevents
        exact hfinal.sound.wellFormed hfinal.ready.safe.nodes

/-- Unmatched starts and ends around a table in an item; the code span closes nothing. -/
example :
    (Builder.events [(.stop, ⟨0, 0⟩), (.start .item, ⟨0, 9⟩), (.start .strong, ⟨0, 1⟩),
      (.start .table, ⟨1, 2⟩), (.code "x", ⟨2, 3⟩)] { source := #[] }).toOption.map
        (fun builder => (builder.frames, builder.tree.root.ids.map builder.tree.node?)) =
      some ([.transparent, .node 3, .textBlock 2, .node 1],
        [some .document, some .listItem, some .textBlock, some (.emphasis 2), some .codeSpan,
          some (.string "x")]) := by
  cbv

end CanonicalMarkdown.Document
