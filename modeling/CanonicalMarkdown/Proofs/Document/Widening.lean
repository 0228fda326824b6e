import CanonicalMarkdown.Proofs.Document.Content

namespace CanonicalMarkdown.Document

/-! The ranges of the source that the text of a document stands for. -/

/-- The first range ends where the second begins, or earlier. -/
def Segment.Before (first second : Segment) : Prop := first.stop ≤ second.start

instance : DecidableRel Segment.Before := fun first second =>
  inferInstanceAs (Decidable (first.stop ≤ second.start))

/-- The range of a text that is not empty. -/
def Node.textSegment? : Node → Option Segment
  | .text segment _ _ _ => if segment.isEmpty then none else some segment
  | _ => none

theorem Node.textSegment?_unbroken (node : Node) :
    node.unbroken.textSegment? = node.textSegment? := by
  cases node <;> rfl

namespace Tree

def textSegments (tree : Tree) : List Segment :=
  (tree.nodes tree.root.ids).filterMap Node.textSegment?

theorem nodes_range (tree : Tree) :
    tree.nodes (List.range tree.size) = tree.entries.toList.map Entry.node := by
  have hlookup : tree.node? = fun id => tree.entries.toList[id]?.map Entry.node := by
    funext id
    simp [node?, get?]
  have hlist : ∀ entries : List Entry,
      (List.range entries.length).filterMap (fun id => entries[id]?.map Entry.node) =
        entries.map Entry.node := by
    intro entries
    induction entries with
    | nil => rfl
    | cons entry rest ih =>
        rw [List.length_cons, List.range_succ_eq_map, List.filterMap_cons, List.filterMap_map,
          List.map_cons, ← ih]
        rfl
  rw [nodes, hlookup, size, ← Array.length_toList]
  exact hlist tree.entries.toList

theorem Linked.textSegments_eq {tree : Tree} (hlinked : tree.Linked) (horderly : tree.Orderly) :
    tree.textSegments = tree.listing.filterMap Node.textSegment? := by
  rw [textSegments, hlinked.ids_root_eq_range horderly, nodes_range, listing, List.filterMap_map,
    List.filterMap_map]
  apply List.filterMap_congr
  intro entry _
  exact entry.node.textSegment?_unbroken.symm

end Tree

/-! A piece is what an event takes from the source to be written as it is. -/

structure Piece where
  range : Segment
  /-- Whether the byte before the range is taken for the backslash of an escape. -/
  escaped : Bool
  deriving DecidableEq, Repr

namespace Piece

def segment (piece : Piece) : Segment :=
  if piece.escaped then ⟨piece.range.start - 1, piece.range.stop⟩ else piece.range

theorem stop_segment (piece : Piece) : piece.segment.stop = piece.range.stop := by
  unfold segment
  split <;> rfl

/-- There is something in the range, and something before it to be taken for an escape. -/
structure Sound (piece : Piece) : Prop where
  nonempty : piece.range.start < piece.range.stop
  escaped : piece.escaped = true → 0 < piece.range.start

namespace Sound

variable {first second : Piece} (hsecond : second.Sound)
include hsecond

theorem before_segment_iff :
    first.segment.Before second.segment ↔
      first.range.Before second.range ∧
        (second.escaped = true → first.range.stop ≠ second.range.start) := by
  have hstart := hsecond.escaped
  rw [Segment.Before, Segment.Before, stop_segment, segment]
  cases hescaped : second.escaped with
  | false => simp
  | true =>
      have hpositive := hstart hescaped
      simp only [if_true, forall_const]
      omega

end Sound

/-- No piece that counts as escaped begins right where the one before it ends, so that what is taken
for its backslash is no part of that one. -/
def EscapesApart (pieces : List Piece) : Prop :=
  ∀ before first second after, pieces = before ++ first :: second :: after →
    second.escaped = true → first.range.stop ≠ second.range.start

theorem pairwise_segment_iff {pieces : List Piece} (hsound : ∀ piece ∈ pieces, piece.Sound) :
    (pieces.map segment).Pairwise Segment.Before ↔
      (pieces.map range).Pairwise Segment.Before ∧ EscapesApart pieces := by
  rw [List.pairwise_map, List.pairwise_map]
  constructor
  · intro hpairs
    refine ⟨?_, ?_⟩
    · apply hpairs.imp_of_mem
      intro first second _ hsecond hbefore
      exact ((hsound second hsecond).before_segment_iff.mp hbefore).1
    · rintro before first second after rfl
      have htwo := (List.pairwise_append.mp hpairs).2.1
      have hbefore := (List.pairwise_cons.mp htwo).1 second List.mem_cons_self
      exact ((hsound second (by simp)).before_segment_iff.mp hbefore).2
  · rintro ⟨hpairs, hgaps⟩
    induction pieces with
    | nil => exact .nil
    | cons first rest ih =>
        obtain ⟨hfirst, hrest⟩ := List.pairwise_cons.mp hpairs
        have hsoundRest : ∀ piece ∈ rest, piece.Sound := fun piece hpiece =>
          hsound piece (List.mem_cons_of_mem _ hpiece)
        refine List.pairwise_cons.mpr ⟨?_, ih hsoundRest hrest ?_⟩
        · intro other hother
          refine (hsoundRest other hother).before_segment_iff.mpr ⟨hfirst other hother, ?_⟩
          cases rest with
          | nil => cases hother
          | cons second others =>
              rcases List.mem_cons.mp hother with rfl | hlater
              · exact hgaps [] first other others rfl
              · -- Whatever stands in between keeps the two apart.
                intro _
                have hfirstSecond := hfirst second List.mem_cons_self
                have hsecondOther := (List.pairwise_cons.mp hrest).1 other hlater
                have hnonempty := (hsoundRest second List.mem_cons_self).nonempty
                simp only [Segment.Before] at hfirstSecond hsecondOther
                omega
        · rintro before left right after rfl
          exact hgaps (first :: before) left right after rfl

end Piece

namespace Event

/-- Whether the event is written as its range of the source, without a look at its text. -/
def isRaw : Event → Bool
  | .footnoteReference _ | .inlineMath _ | .displayMath _ | .taskMarker _ => true
  | _ => false

def piece? (source : Source) (range : Segment) : Event → Option Piece
  | .text content => some ⟨range, Builder.isEscaped source content range⟩
  | .footnoteReference _ | .inlineMath _ | .displayMath _ | .taskMarker _ => some ⟨range, false⟩
  | _ => none

end Event

namespace EventStream

/-- The ranges of the text events. -/
def textRanges (stream : EventStream) : List Segment :=
  stream.filterMap fun entry => if entry.1.isText then some entry.2 else none

/-- What the events take from the source, apart from what is empty. -/
def pieces (source : Source) (stream : EventStream) : List Piece :=
  stream.filterMap fun entry =>
    (entry.1.piece? source entry.2).filter fun piece => !piece.range.isEmpty

end EventStream

theorem Builder.pos_of_isEscaped {source : Source} {content : String} {range : Segment}
    (hescaped : isEscaped source content range = true) : 0 < range.start := by
  unfold isEscaped at hescaped
  split at hescaped
  · cases hescaped
  · simp only [Bool.and_eq_true, decide_eq_true_eq] at hescaped
    exact hescaped.1.1.1

theorem Event.escaped_pos {source : Source} {range : Segment} {event : Event} {piece : Piece}
    (hpiece : event.piece? source range = some piece) (hescaped : piece.escaped = true) :
    0 < piece.range.start := by
  cases event with
  | text content =>
      cases hpiece
      exact Builder.pos_of_isEscaped hescaped
  | footnoteReference | inlineMath | displayMath | taskMarker =>
      cases hpiece
      cases hescaped
  | _ => cases hpiece

namespace EventStream

theorem pieces_append (source : Source) (first second : EventStream) :
    pieces source (first ++ second) = first.pieces source ++ second.pieces source :=
  List.filterMap_append

theorem pieces_singleton (source : Source) (event : Event) (range : Segment) :
    pieces source [(event, range)] =
      ((event.piece? source range).filter fun piece => !piece.range.isEmpty).toList := by
  rw [pieces, List.filterMap_eq_flatMap_toList, List.flatMap_singleton]

theorem sound_of_mem_pieces {source : Source} {stream : EventStream} {piece : Piece}
    (hpiece : piece ∈ stream.pieces source) : piece.Sound := by
  obtain ⟨⟨event, range⟩, -, hfound⟩ := List.mem_filterMap.mp hpiece
  obtain ⟨hmade, hfilled⟩ := Option.filter_eq_some_iff.mp hfound
  refine ⟨?_, Event.escaped_pos hmade⟩
  simpa [Segment.isEmpty] using hfilled

/-- Without raw events the pieces have the ranges of the text events. -/
theorem map_range_pieces (source : Source) {stream : EventStream}
    (hranges : ∀ range ∈ stream.textRanges, range.start < range.stop)
    (hraw : ∀ entry ∈ stream, entry.1.isRaw = false) :
    (stream.pieces source).map Piece.range = stream.textRanges := by
  rw [pieces, List.map_filterMap]
  apply List.filterMap_congr
  rintro ⟨event, range⟩ hentry
  have hnotRaw := hraw _ hentry
  cases event with
  | text content =>
      have hmem : range ∈ stream.textRanges := List.mem_filterMap.mpr ⟨_, hentry, rfl⟩
      have hfilled : range.isEmpty = false := by simpa [Segment.isEmpty] using hranges range hmem
      simp [Event.piece?, Event.isText, hfilled]
  | footnoteReference | inlineMath | displayMath | taskMarker => cases hnotRaw
  | _ => rfl

end EventStream

/-! Every event adds the piece that it takes, unless something captures it. -/

theorem Event.Makes.textSegments {source : Source} {range : Segment} {captured : Bool}
    {event : Event} {made : List Node} (hmakes : event.Makes source range captured made)
    (hrange : event.isText = true → range.start < range.stop) :
    made.filterMap Node.textSegment? =
      (if captured then [] else EventStream.pieces source [(event, range)]).map Piece.segment := by
  cases event with
  | stop =>
      have hnone : made.filterMap Node.textSegment? = [] := by
        rcases hmakes with rfl | ⟨node, rfl, hkind⟩
        · rfl
        · cases node <;> first | rfl | cases hkind
      rw [hnone]
      cases captured <;> rfl
  | softBreak | hardBreak =>
      have hnone : made.filterMap Node.textSegment? = [] := by
        rcases hmakes with rfl | rfl <;>
          simp [Node.lineBreak, Node.textSegment?, Segment.isEmpty]
      rw [hnone]
      cases captured <;> rfl
  | start tag =>
      cases hmakes
      cases captured with
      | true => rfl
      | false =>
          cases tag with
          | link type destination title =>
              cases hauto : type.isAutomatic <;> simp [nodes, Tag.node?, hauto] <;> rfl
          | _ => rfl
  | text content =>
      cases hmakes
      cases captured with
      | true => rfl
      | false =>
          have hfilled := hrange rfl
          have hsegment : Builder.textSegment source content range =
              Piece.segment ⟨range, Builder.isEscaped source content range⟩ := rfl
          have hwide : (Builder.textSegment source content range).start <
              (Builder.textSegment source content range).stop := by
            unfold Builder.textSegment
            split
            · exact Nat.lt_of_le_of_lt (Nat.sub_le _ _) hfilled
            · exact hfilled
          have hmade : Node.textSegment? (.plainText (Builder.textSegment source content range)) =
              some (Builder.textSegment source content range) :=
            if_neg (by simpa [Segment.isEmpty] using hwide)
          rw [if_neg Bool.false_ne_true, if_neg Bool.false_ne_true, EventStream.pieces_singleton,
            nodes, List.filterMap_cons_some hmade, hsegment]
          simp [piece?, Segment.isEmpty, hfilled, Option.filter_some]
  | footnoteReference | inlineMath | displayMath | taskMarker =>
      cases hmakes
      cases captured with
      | true => rfl
      | false =>
          rw [if_neg Bool.false_ne_true, if_neg Bool.false_ne_true, EventStream.pieces_singleton]
          cases hempty : range.isEmpty <;>
            simp [nodes, Node.rawText, Node.textSegment?, piece?, hempty, Piece.segment,
              Option.filter_some]
  | _ =>
      cases hmakes
      cases captured <;> rfl

theorem Stage.Moves.source_eq {made : List Node} {start finish : Stage}
    (hmoves : Moves made start finish) : finish.source = start.source := by
  induction hmoves with
  | none => rfl
  | cons hmove _ ih =>
      refine ih.trans ?_
      cases hmove <;> rfl

namespace Builder

/-- The events that arrive while nothing captures them. -/
def uncaptured : EventStream → Builder → EventStream
  | [], _ => []
  | (event, range) :: rest, builder =>
      (if builder.isCapturing then [] else [(event, range)]) ++
        match builder.event event range with
        | .error _ => []
        | .ok next => next.uncaptured rest

theorem uncaptured_sublist (stream : EventStream) (builder : Builder) :
    (builder.uncaptured stream).Sublist stream := by
  induction stream generalizing builder with
  | nil => exact .slnil
  | cons entry rest ih =>
      obtain ⟨event, range⟩ := entry
      have hfirst : (if builder.isCapturing then [] else [(event, range)]).Sublist
          [(event, range)] := by
        split
        · exact List.nil_sublist _
        · exact List.Sublist.refl _
      refine hfirst.append ?_
      split
      · exact List.nil_sublist _
      · exact ih _

theorem Lawful.textSegments_events {builder final : Builder} {stream : EventStream}
    (hlawful : builder.Lawful) (hevents : builder.events stream = .ok final)
    (hranges : ∀ range ∈ stream.textRanges, range.start < range.stop) :
    final.tree.listing.filterMap Node.textSegment? =
      builder.tree.listing.filterMap Node.textSegment? ++
        ((builder.uncaptured stream).pieces builder.source).map Piece.segment := by
  induction stream generalizing builder with
  | nil =>
      cases hevents
      exact (List.append_nil _).symm
  | cons entry rest ih =>
      obtain ⟨event, range⟩ := entry
      obtain ⟨next, hevent, hrest⟩ := events_cons_eq_ok.mp hevents
      obtain ⟨blocks, made, hblocks, hmakes, hmoves⟩ := hlawful.moves hevent
      have hsource : next.source = builder.source := hmoves.source_eq
      have hsilent : blocks.filterMap Node.textSegment? = [] := by
        rcases hblocks with rfl | rfl <;> rfl
      have hrange : event.isText = true → range.start < range.stop := by
        intro htext
        apply hranges
        exact List.mem_filterMap.mpr ⟨(event, range), List.mem_cons_self, by simp [htext]⟩
      have hlater : ∀ other ∈ EventStream.textRanges rest, other.start < other.stop := by
        intro other hother
        apply hranges
        obtain ⟨entry, hentry, hfound⟩ := List.mem_filterMap.mp hother
        exact List.mem_filterMap.mpr ⟨entry, List.mem_cons_of_mem _ hentry, hfound⟩
      have hadded : next.tree.listing.filterMap Node.textSegment? =
          builder.tree.listing.filterMap Node.textSegment? ++
            (if builder.isCapturing then []
              else EventStream.pieces builder.source [(event, range)]).map Piece.segment := by
        have hlisting : next.tree.listing = _ := hmoves.listing hlawful.sound
        have hunbroken : ((blocks ++ made).map Node.unbroken).filterMap Node.textSegment? =
            made.filterMap Node.textSegment? := by
          have hsame : Node.textSegment? ∘ Node.unbroken = Node.textSegment? :=
            funext Node.textSegment?_unbroken
          rw [List.filterMap_map, hsame, List.filterMap_append, hsilent, List.nil_append]
        rw [hlisting, List.filterMap_append, hunbroken, hmakes.textSegments hrange,
          ← isCapturing_eq hlawful.ready]
        rfl
      rw [ih (hlawful.event hevent) hrest hlater, hadded, hsource, List.append_assoc]
      simp only [uncaptured, hevent]
      rw [EventStream.pieces_append, List.map_append]
      cases builder.isCapturing <;> rfl

end Builder

/-- The text of a document is what its events took from the source, each widened to the backslash
before it where it counts as escaped. Where the ranges of the events are apart, so are those of the
text, unless such a backslash is the last byte of the piece before. -/
theorem Parsed.texts_apart_iff {source : Source} {stream : EventStream} {parsed : Parsed}
    (hparsed : Parsed.ofEvents source stream = .ok parsed)
    (hranges : ∀ range ∈ stream.textRanges, range.start < range.stop)
    (hordered : stream.textRanges.Pairwise Segment.Before) :
    let pieces := (Builder.uncaptured stream { source }).pieces source
    parsed.tree.textSegments = pieces.map Piece.segment ∧
      (parsed.tree.textSegments.Pairwise Segment.Before ↔
        (pieces.map Piece.range).Pairwise Segment.Before ∧ Piece.EscapesApart pieces) ∧
      ((∀ entry ∈ stream, entry.1.isRaw = false) →
        (pieces.map Piece.range).Pairwise Segment.Before) := by
  intro pieces
  have hnew := Builder.lawful_new source
  cases hevents : Builder.events stream { source } with
  | error error =>
      rw [Parsed.ofEvents, hevents] at hparsed
      cases hparsed
  | ok final =>
      rw [Parsed.ofEvents, hevents] at hparsed
      cases hparsed
      have horderly := (hnew.ordered_events (Builder.ordered_new source) hevents).orderly
      have hlinked : final.tree.Linked := (hnew.events hevents).sound.grown.linked
      have hsegments : final.tree.textSegments = pieces.map Piece.segment := by
        rw [hlinked.textSegments_eq horderly, hnew.textSegments_events hevents hranges]
        rfl
      refine ⟨hsegments, ?_, ?_⟩
      · rw [hsegments]
        exact Piece.pairwise_segment_iff fun piece => EventStream.sound_of_mem_pieces
      · intro hraw
        have hsublist := Builder.uncaptured_sublist stream { source }
        have htexts : (Builder.uncaptured stream { source }).textRanges.Sublist
            stream.textRanges := hsublist.filterMap _
        have hfree : pieces.map Piece.range =
            (Builder.uncaptured stream { source }).textRanges :=
          EventStream.map_range_pieces source
            (fun range hrange => hranges range (htexts.subset hrange))
            fun entry hentry => hraw entry (hsublist.subset hentry)
        rw [hfree]
        exact hordered.sublist htexts

/-- The text `a\*b`, of which the star is escaped. -/
def escapedStar : EventStream :=
  [(.start .paragraph, ⟨0, 4⟩), (.text "a", ⟨0, 1⟩), (.text "*b", ⟨2, 4⟩), (.stop, ⟨0, 4⟩)]

theorem Parsed.escapedStar_apart :
    ∃ parsed, Parsed.ofEvents #[97, 92, 42, 98] escapedStar = .ok parsed ∧
      escapedStar.textRanges = [⟨0, 1⟩, ⟨2, 4⟩] ∧
      parsed.tree.textSegments = [⟨0, 1⟩, ⟨1, 4⟩] ∧
      parsed.tree.textSegments.Pairwise Segment.Before := by
  have hpieces : (Builder.uncaptured escapedStar { source := #[97, 92, 42, 98] }).pieces
      #[97, 92, 42, 98] = [⟨⟨0, 1⟩, false⟩, ⟨⟨2, 4⟩, true⟩] := by cbv
  have hbuilt : (Parsed.ofEvents #[97, 92, 42, 98] escapedStar).toOption.isSome = true := by cbv
  cases hparsed : Parsed.ofEvents #[97, 92, 42, 98] escapedStar with
  | error error =>
      rw [hparsed] at hbuilt
      cases hbuilt
  | ok parsed =>
      obtain ⟨hsegments, -, -⟩ := Parsed.texts_apart_iff hparsed (by decide) (by decide)
      rw [hpieces] at hsegments
      refine ⟨parsed, rfl, by decide, hsegments, ?_⟩
      rw [hsegments]
      decide

/-- The text `\\*`, a backslash that is escaped and a star that is not. -/
def escapedBackslash : EventStream :=
  [(.start .paragraph, ⟨0, 3⟩), (.text "\\", ⟨1, 2⟩), (.text "*", ⟨2, 3⟩), (.stop, ⟨0, 3⟩)]

/-- The escaped backslash is taken for an escape of the star as well, and so stands in two texts. -/
theorem Parsed.escapedBackslash_repeated :
    ¬∀ (source : Source) (stream : EventStream) (parsed : Parsed),
      Parsed.ofEvents source stream = .ok parsed →
      (∀ range ∈ stream.textRanges, range.start < range.stop ∧ range.stop ≤ source.size) →
      stream.textRanges.Pairwise Segment.Before →
        parsed.tree.textSegments.Pairwise Segment.Before := by
  intro hapart
  have hsegments : (Parsed.ofEvents #[92, 92, 42] escapedBackslash).toOption.map
      (·.tree.textSegments) = some [⟨0, 2⟩, ⟨1, 3⟩] := by cbv
  cases hparsed : Parsed.ofEvents #[92, 92, 42] escapedBackslash with
  | error error =>
      rw [hparsed] at hsegments
      cases hsegments
  | ok parsed =>
      have hpairs := hapart _ _ parsed hparsed (by decide) (by decide)
      have hboth : parsed.tree.textSegments = [⟨0, 2⟩, ⟨1, 3⟩] := by
        rw [hparsed] at hsegments
        exact Option.some.inj hsegments
      rw [hboth] at hpairs
      exact absurd hpairs (by decide)

end CanonicalMarkdown.Document
