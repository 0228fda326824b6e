import CanonicalMarkdown.Proofs.Document.Order
import Mathlib

namespace CanonicalMarkdown.Document

/-! What the source says, apart from how it is marked up. -/

inductive Content where
  | text (segment : Segment)
  | raw (segment : Segment)
  | code (pieces : List String)
  | html (segments : List Segment)
  | autoLink (url : String)
  deriving DecidableEq, Repr

namespace Event

def isText : Event → Bool
  | .text _ => true
  | _ => false

def content? (source : Source) (range : Segment) : Event → Option Content
  | .text content => some (.text (Builder.textSegment source content range))
  | .footnoteReference _ | .inlineMath _ | .displayMath _ | .taskMarker _ => some (.raw range)
  | .code content => some (.code [content])
  | .html _ | .inlineHtml _ => some (.html [range])
  | .start (.link type destination _) =>
      if type.isAutomatic then some (.autoLink destination) else none
  | _ => none

end Event

/-- What a node says by itself. Text that is not raw may be there for its line break alone. -/
def Node.content? (fromText : Bool) : Node → Option Content
  | .text segment raw _ _ =>
      if raw then some (.raw segment) else if fromText then some (.text segment) else none
  | .string value => some (.code [value])
  | .rawHtml segments => some (.html segments)
  | .autoLink url => some (.autoLink url)
  | _ => none

def Node.string? : Node → Option String
  | .string value => some value
  | _ => none

/-- What a node of a tree says. A code span says what is in the strings below it. -/
def Tree.content? (tree : Tree) (fromText : NodeId → Bool) (id : NodeId) : Option Content :=
  match tree.node? id with
  | none | some (.string _) => none
  | some .codeSpan =>
      some (.code ((tree.nodes (tree.children id)).filterMap Node.string?))
  | some node => node.content? (fromText id)

namespace Builder

/-- Whether a code, HTML or front matter block, an image or an automatic link takes what comes. -/
def isCapturing (builder : Builder) : Bool := builder.frames.any (·.target != .tree)

/-- What the events say that arrive while nothing captures them. -/
def arrivals : EventStream → Builder → List Content
  | [], _ => []
  | (event, range) :: rest, builder =>
      (if builder.isCapturing then none else event.content? builder.source range).toList ++
        match builder.event event range with
        | .error _ => []
        | .ok next => next.arrivals rest

theorem isCapturing_eq {builder : Builder} (hready : builder.Ready) :
    builder.isCapturing = (builder.target != .tree) := by
  have hall : builder.target = .tree ↔ ∀ frame ∈ builder.frames, frame.target = .tree :=
    Stage.target_eq_tree_iff builder.stage hready.nested
  by_cases htarget : builder.target = .tree
  · have hfree : (builder.target != .tree) = false := by simpa using htarget
    rw [hfree, isCapturing, List.any_eq_false]
    intro frame hframe
    simp [hall.mp htarget frame hframe]
  · have hcaptured : (builder.target != .tree) = true := by simpa using htarget
    rw [hall] at htarget
    rw [hcaptured, isCapturing, List.any_eq_true]
    push Not at htarget
    simpa using htarget

end Builder

theorem Event.Makes.contents {source : Source} {range : Segment} {captured : Bool} {event : Event}
    {made : List Node} (hmakes : event.Makes source range captured made) :
    made.filterMap (Node.content? event.isText) =
      (if captured then none else event.content? source range).toList := by
  cases event with
  | stop =>
      rcases hmakes with rfl | ⟨node, rfl, hkind⟩
      · cases captured <;> rfl
      · have hnone : node.content? false = none := by
          cases node <;> first | rfl | cases hkind
        cases captured <;> simp [isText, hnone, content?]
  | softBreak | hardBreak => rcases hmakes with rfl | rfl <;> cases captured <;> rfl
  | start tag =>
      cases hmakes
      cases captured with
      | true => rfl
      | false =>
          cases tag with
          | link type destination title =>
              cases hauto : type.isAutomatic <;>
                simp [nodes, Tag.node?, content?, hauto, Node.content?]
          | _ => rfl
  | _ =>
      cases hmakes
      cases captured <;> rfl

theorem Node.content?_unbroken (fromText : Bool) (node : Node) :
    node.unbroken.content? fromText = node.content? fromText := by
  cases node <;> rfl

namespace Tree

variable {tree : Tree} {fromText : NodeId → Bool} {id : NodeId} {node : Node}

theorem content?_of_node? (hnode : tree.node? id = some node) (hspan : node.kind ≠ .codeSpan)
    (hstring : node.kind ≠ .string) :
    tree.content? fromText id = node.content? (fromText id) := by
  unfold content?
  rw [hnode]
  cases node with
  | codeSpan => exact absurd rfl hspan
  | string => exact absurd rfl hstring
  | _ => rfl

theorem content?_string {value : String} (hnode : tree.node? id = some (.string value)) :
    tree.content? fromText id = none := by
  rw [content?, hnode]

theorem content?_codeSpan {child : NodeId} {value : String}
    (hnode : tree.node? id = some .codeSpan) (hchildren : tree.children id = [child])
    (hchild : tree.node? child = some (.string value)) :
    tree.content? fromText id = some (.code [value]) := by
  rw [content?, hnode]
  simp [hchildren, nodes, hchild, Node.string?]

/-- What all nodes say, in the order in which they were made. -/
def contents (tree : Tree) (fromText : NodeId → Bool) : List Content :=
  (List.range tree.size).filterMap (tree.content? fromText)

end Tree

namespace Stage

variable {made : List Node} {start finish : Stage} {fromText : NodeId → Bool}

theorem Moves.content?_eq (hmoves : Moves made start finish) (hsound : start.Sound) {id : NodeId}
    (hid : id < start.tree.size) :
    finish.tree.content? fromText id = start.tree.content? fromText id := by
  obtain ⟨node, hnode⟩ := Tree.exists_node?_of_lt hid
  by_cases hspan : node.kind = .codeSpan
  · have hcode : node = .codeSpan := by cases node <;> first | rfl | cases hspan
    rw [hcode] at hnode
    have hlater := hmoves.node?_eq hsound hnode (by decide)
    obtain ⟨value, hchildren, hvalue⟩ := hsound.spans id hnode
    obtain ⟨other, hlaterChildren, -⟩ := (hmoves.sound hsound).spans id hlater
    have hlaterValue := hmoves.node?_eq hsound hvalue (by simp [Node.kind])
    rw [Tree.content?_codeSpan hnode hchildren hvalue,
      Tree.content?_codeSpan hlater hlaterChildren hlaterValue]
  · by_cases hstring : node.kind = .string
    · have hlater := hmoves.node?_eq hsound hnode (by simp [hstring])
      cases node with
      | string => rw [Tree.content?_string hnode, Tree.content?_string hlater]
      | _ => cases hstring
    · have hsame := hmoves.unbroken_node? hsound hid
      rw [hnode, Option.map_some] at hsame
      obtain ⟨own, hown, heq⟩ := Option.map_eq_some_iff.mp hsame
      have hkind : own.kind = node.kind := by
        rw [← own.kind_unbroken, heq, node.kind_unbroken]
      rw [Tree.content?_of_node? hnode hspan hstring,
        Tree.content?_of_node? hown (hkind ▸ hspan) (hkind ▸ hstring), ← own.content?_unbroken, heq,
        node.content?_unbroken]

theorem Moves.contents_eq (hmoves : Moves made start finish) (hsound : start.Sound) :
    finish.tree.contents fromText = start.tree.contents fromText ++
      (List.range made.length).filterMap fun index =>
        finish.tree.content? fromText (start.tree.size + index) := by
  have hold : (List.range start.tree.size).filterMap (finish.tree.content? fromText) =
      start.tree.contents fromText := by
    apply List.filterMap_congr
    intro id hid
    exact hmoves.content?_eq hsound (List.mem_range.mp hid)
  rw [Tree.contents, hmoves.size_eq hsound, List.range_add, List.filterMap_append, hold,
    List.filterMap_map]
  rfl

/-- A code span speaks once for both of its nodes. -/
theorem Sound.contents_addedCode (hsound : start.Sound) (code : String) :
    (List.range 2).filterMap (fun index =>
      ((start.added .codeSpan).tree.appended start.tree.size (.string code)).content? fromText
        (start.tree.size + index)) = [.code [code]] := by
  have hspan := hsound.node?_added_size .codeSpan
  have hstring := Tree.append?_of_lt (Tree.lt_of_node? hspan) (.string code)
  have hsize : (start.added .codeSpan).tree.size = start.tree.size + 1 :=
    Tree.size_append (hsound.append?_eq .codeSpan)
  have hlater := Tree.node?_append hstring start.tree.size
  rw [if_neg (Nat.ne_of_lt (Tree.lt_of_node? hspan)), hspan] at hlater
  have hcode := Tree.node?_append hstring (start.tree.size + 1)
  rw [if_pos hsize.symm] at hcode
  obtain ⟨value, hchildren, -⟩ := (hsound.addedCode code).spans start.tree.size hlater
  simp only [List.range_succ, List.range_zero, List.nil_append, List.singleton_append,
    List.filterMap_cons, List.filterMap_nil, Nat.add_zero,
    Tree.content?_codeSpan hlater hchildren hcode, Tree.content?_string hcode]

theorem Move.contents {flag : Bool} (hmove : Move made start finish) (hsound : start.Sound)
    (hflag : ∀ id, start.tree.size ≤ id → id < finish.tree.size → fromText id = flag) :
    finish.tree.contents fromText =
      start.tree.contents fromText ++ made.filterMap (Node.content? flag) := by
  have hsize := hmove.moves.size_eq hsound
  have hsingle : ∀ node : Node, made = [node] → node.kind ≠ .codeSpan → node.kind ≠ .string →
      finish.tree.node? start.tree.size = some node →
      (List.range 1).filterMap (fun index =>
        finish.tree.content? fromText (start.tree.size + index)) =
          [node].filterMap (Node.content? flag) := by
    rintro node rfl hspan hstring hnode
    have hnew := hflag start.tree.size (Nat.le_refl _) (hsize ▸ Nat.lt_succ_self _)
    simp only [List.range_one, List.filterMap_cons, List.filterMap_nil, Nat.add_zero,
      Tree.content?_of_node? hnode hspan hstring, hnew]
  rw [hmove.moves.contents_eq hsound]
  congr 1
  cases hmove with
  | push | pop | breakLine => rfl
  | @add _ node hkind =>
      obtain ⟨hspan, hstring, -⟩ := Kind.ne_of_isChildless_or_isContainer (.inl hkind)
      exact hsingle node rfl hspan hstring (hsound.node?_added_size node)
  | @openNode _ node hkind _ =>
      obtain ⟨hspan, hstring, -⟩ := Kind.ne_of_isChildless_or_isContainer (.inr hkind)
      exact hsingle node rfl hspan hstring (hsound.node?_added_size node)
  | openTextBlock =>
      exact hsingle .textBlock rfl (by decide) (by decide) (hsound.node?_added_size .textBlock)
  | addCode code => exact hsound.contents_addedCode code

theorem Moves.contents {flag : Bool} (hmoves : Moves made start finish) (hsound : start.Sound)
    (hflag : ∀ id, start.tree.size ≤ id → id < finish.tree.size → fromText id = flag) :
    finish.tree.contents fromText =
      start.tree.contents fromText ++ made.filterMap (Node.content? flag) := by
  induction hmoves with
  | none => simp
  | @cons first others start middle finish hmove hrest ih =>
      have hmiddle := hmove.moves.size_eq hsound
      have hfinish := hrest.size_eq (hmove.sound hsound)
      rw [ih (hmove.sound hsound) fun id hle => hflag id (by omega),
        hmove.contents hsound fun id hle hlt => hflag id hle (by omega), List.filterMap_append,
        List.append_assoc]

end Stage

namespace Builder

variable {builder next final : Builder} {fromText : NodeId → Bool}

theorem Lawful.contents_event {event : Event} {range : Segment} (hlawful : builder.Lawful)
    (hevent : builder.event event range = .ok next)
    (hfrom : ∀ id, builder.tree.size ≤ id → id < next.tree.size → fromText id = event.isText) :
    next.tree.contents fromText = builder.tree.contents fromText ++
      (if builder.isCapturing then none else event.content? builder.source range).toList := by
  obtain ⟨blocks, made, hblocks, hmakes, hmoves⟩ := hlawful.moves hevent
  have hsilent : blocks.filterMap (Node.content? event.isText) = [] := by
    rcases hblocks with rfl | rfl <;> rfl
  have hcontents := hmoves.contents hlawful.sound hfrom
  rw [List.filterMap_append, hsilent, List.nil_append, hmakes.contents,
    ← isCapturing_eq hlawful.ready] at hcontents
  exact hcontents

theorem Lawful.contents_events {stream : EventStream} (hlawful : builder.Lawful)
    (hevents : builder.events stream = .ok final)
    (hfrom : ∀ id, builder.tree.size ≤ id →
      fromText id = (builder.origin? stream id).any Event.isText) :
    final.tree.contents fromText = builder.tree.contents fromText ++ builder.arrivals stream := by
  induction stream generalizing builder with
  | nil =>
      cases hevents
      rw [arrivals, List.append_nil]
  | cons head rest ih =>
      obtain ⟨event, range⟩ := head
      obtain ⟨next, hevent, hrest⟩ := events_cons_eq_ok.mp hevents
      have hsize : builder.tree.size ≤ next.tree.size := by
        obtain ⟨blocks, made, -, -, hmoves⟩ := hlawful.moves hevent
        exact hmoves.size_eq hlawful.sound ▸ Nat.le_add_right ..
      -- The first event decides for the nodes it makes, and the rest for those that come later.
      have hnow : ∀ id, builder.tree.size ≤ id → id < next.tree.size →
          fromText id = event.isText := by
        intro id hle hlt
        rw [hfrom id hle]
        simp only [origin?, hevent]
        rw [if_pos ⟨hle, hlt⟩]
        rfl
      have hlater : ∀ id, next.tree.size ≤ id →
          fromText id = (next.origin? rest id).any Event.isText := by
        intro id hle
        rw [hfrom id (Nat.le_trans hsize hle)]
        simp only [origin?, hevent]
        rw [if_neg fun hnow => Nat.not_lt_of_le hle hnow.2]
      rw [ih (hlawful.event hevent) hrest hlater, hlawful.contents_event hevent hnow,
        List.append_assoc]
      simp only [arrivals, hevent]

end Builder

/-- Nodes come in the order of their events, and what they say is what arrived, once each. -/
theorem Parsed.keeps_document_order {source : Source} {stream : EventStream} {parsed : Parsed}
    (hparsed : Parsed.ofEvents source stream = .ok parsed) :
    parsed.tree.root.ids = List.range parsed.tree.size ∧
      parsed.tree.root.ids.filterMap
          (parsed.tree.content? fun id =>
            (Builder.origin? stream { source } id).any Event.isText) =
        Builder.arrivals stream { source } := by
  have hnew := Builder.lawful_new source
  cases hevents : Builder.events stream { source } with
  | error error =>
      rw [Parsed.ofEvents, hevents] at hparsed
      cases hparsed
  | ok final =>
      rw [Parsed.ofEvents, hevents] at hparsed
      cases hparsed
      have hordered := hnew.ordered_events (Builder.ordered_new source) hevents
      have hids : final.tree.root.ids = List.range final.tree.size :=
        (hnew.events hevents).sound.grown.linked.ids_root_eq_range hordered.orderly
      refine ⟨hids, ?_⟩
      have hcontents := hnew.contents_events hevents (fun id _ => rfl)
      rw [hids]
      exact hcontents

/-- An item that never ends. An image and an automatic link capture their text, and a code block
what comes after it. -/
def unendedItem : EventStream :=
  [(.stop, ⟨0, 0⟩), (.start .item, ⟨0, 40⟩), (.text "a", ⟨2, 3⟩), (.hardBreak, ⟨3, 4⟩),
    (.start (.image "b" ""), ⟨4, 14⟩), (.text "b", ⟨6, 7⟩), (.code "c", ⟨7, 10⟩),
    (.stop, ⟨4, 14⟩), (.softBreak, ⟨14, 15⟩), (.start (.link .email "d" ""), ⟨15, 20⟩),
    (.text "d", ⟨16, 19⟩), (.stop, ⟨15, 20⟩), (.code "e", ⟨20, 23⟩), (.start .paragraph, ⟨23, 40⟩),
    (.inlineHtml "<f>", ⟨23, 26⟩), (.taskMarker true, ⟨26, 29⟩), (.start .indentedCode, ⟨30, 40⟩),
    (.text "g", ⟨34, 35⟩)]

theorem unendedItem_keeps_order :
    ∃ parsed, Parsed.ofEvents #[] unendedItem = .ok parsed ∧
      parsed.tree.root.ids = List.range 12 ∧
      parsed.tree.root.ids.filterMap
          (parsed.tree.content? fun id =>
            (Builder.origin? unendedItem { source := #[] } id).any Event.isText) =
        [.text ⟨2, 3⟩, .autoLink "d", .code ["e"], .html [⟨23, 26⟩], .raw ⟨26, 29⟩] := by
  have hsize : (Parsed.ofEvents #[] unendedItem).toOption.map (·.tree.size) = some 12 := by cbv
  have harrivals : Builder.arrivals unendedItem { source := #[] } =
      [.text ⟨2, 3⟩, .autoLink "d", .code ["e"], .html [⟨23, 26⟩], .raw ⟨26, 29⟩] := by cbv
  cases hparsed : Parsed.ofEvents #[] unendedItem with
  | error error =>
      rw [hparsed] at hsize
      cases hsize
  | ok parsed =>
      obtain ⟨hids, hcontents⟩ := Parsed.keeps_document_order hparsed
      have htwelve : parsed.tree.size = 12 := by
        rw [hparsed] at hsize
        exact Option.some.inj hsize
      rw [htwelve] at hids
      exact ⟨parsed, rfl, hids, hcontents.trans harrivals⟩

end CanonicalMarkdown.Document
