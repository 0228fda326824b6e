import CanonicalMarkdown.Proofs.Render.Fence
import CanonicalMarkdown.Proofs.Render.LinkTarget
import CanonicalMarkdown.Proofs.Render.ListItem
import CanonicalMarkdown.Proofs.Render.Unsupported

namespace CanonicalMarkdown

open Document Output

namespace Document

/-! Elements with everything below them. -/

namespace Element

mutual

/-- The element and all that is below it, each before what is below it. -/
def all : Element → List Element
  | .mk id node children => .mk id node children :: allOf children

def allOf : List Element → List Element
  | [] => []
  | element :: rest => element.all ++ allOf rest

end

def descendants (element : Element) : List Element := allOf element.children

mutual

/-- The element and what a walk comes to below it: nothing, if it stands for itself. -/
def visited : Element → List Element
  | .mk id node children =>
      .mk id node children :: if node.kind.isOpaque then [] else visitedOf children

def visitedOf : List Element → List Element
  | [] => []
  | element :: rest => element.visited ++ visitedOf rest

end

theorem all_eq (element : Element) : element.all = element :: element.descendants := by
  cases element with
  | mk id node children => rfl

theorem mem_all_self (element : Element) : element ∈ element.all := by
  rw [all_eq]
  exact List.mem_cons_self

theorem mem_visited_self (element : Element) : element ∈ element.visited := by
  cases element with
  | mk id node children => exact List.mem_cons_self

theorem mem_allOf {elements : List Element} {element inner : Element}
    (helement : element ∈ elements) (hinner : inner ∈ element.all) : inner ∈ allOf elements := by
  induction elements with
  | nil => cases helement
  | cons first rest ih =>
      rw [allOf, List.mem_append]
      rcases List.mem_cons.mp helement with rfl | hrest
      · exact .inl hinner
      · exact .inr (ih hrest)

end Element

/-- The texts that an inline node holds. -/
def Node.payload (source : Source) : Node → List Bytes
  | .autoLink url => [Bytes.ofText url]
  | .link destination title => [Bytes.ofText destination, Bytes.ofText title]
  | .image destination title alt =>
      [Bytes.ofText destination, Bytes.ofText title, Bytes.ofText alt]
  | .rawHtml segments => segments.map (Segment.value source)
  | .text segment _ _ _ => [segment.value source]
  | .string value => [Bytes.ofText value]
  | _ => []

/-- An inline node all of whose texts, raw HTML apart, stand on one line. -/
structure Node.IsFlat (source : Source) (node : Node) : Prop where
  isInline : node.isInline = true
  newline_not_mem : node.kind ≠ .rawHtml → ∀ text ∈ node.payload source, Bytes.newline ∉ text

/-- Whether a line ends with the node. -/
def Node.breaksLine : Node → Bool
  | .text _ raw soft hard => !raw && (soft || hard)
  | _ => false

end Document

namespace Render

/-! Layouts that go through, and those that stay on one line. -/

theorem Layout.run_eq_all_iff {layout : Layout} {data : Bytes} :
    let written := layout.run Buffer.empty
    written.result = .ok () ∧ Sink.contents written.state = data ↔ layout.outcome = .all data := by
  simp only [run_eq, Buffer.contents_fed_empty, output]
  cases layout.outcome with
  | mk result output => simp [Written.all]

structure Layout.OneLine (layout : Layout) : Prop where
  failure_eq : layout.failure = none
  newline_not_mem : Bytes.newline ∉ layout.output

namespace Layout

theorem oneLine_iff {layout : Layout} {data : Bytes} (houtcome : layout.outcome = .all data) :
    layout.OneLine ↔ Bytes.newline ∉ data := by
  have hfailure : layout.failure = none := by
    rw [failure, houtcome]
    rfl
  have houtput : layout.output = data := by
    rw [output, houtcome]
    rfl
  refine ⟨fun hline => houtput ▸ hline.newline_not_mem, fun hdata => ⟨hfailure, ?_⟩⟩
  rwa [houtput]

@[simp] theorem oneLine_done : done.OneLine := (oneLine_iff rfl).mpr (by simp)

@[simp] theorem oneLine_bytes (data : Bytes) : (bytes data).OneLine ↔ Bytes.newline ∉ data :=
  oneLine_iff (outcome_bytes data)

@[simp] theorem oneLine_text (content : String) :
    (text content).OneLine ↔ Bytes.newline ∉ Bytes.ofText content :=
  oneLine_iff (outcome_text content)

@[simp] theorem oneLine_visit (node : NodeId) (phase : Phase) (rest : Layout) :
    (visit node phase rest).OneLine ↔ rest.OneLine :=
  ⟨fun hline => ⟨hline.failure_eq, hline.newline_not_mem⟩,
    fun hline => ⟨hline.failure_eq, hline.newline_not_mem⟩⟩

@[simp] theorem oneLine_append (first second : Layout) :
    (first ++ second).OneLine ↔ first.OneLine ∧ second.OneLine := by
  constructor
  · rintro ⟨hfailure, houtput⟩
    rw [failure_append, Option.or_eq_none_iff] at hfailure
    rw [output_append hfailure.1, List.mem_append, not_or] at houtput
    exact ⟨⟨hfailure.1, houtput.1⟩, ⟨hfailure.2, houtput.2⟩⟩
  · rintro ⟨hfirst, hsecond⟩
    refine ⟨?_, ?_⟩
    · rw [failure_append, hfirst.failure_eq, hsecond.failure_eq, Option.none_or]
    · rw [output_append hfirst.failure_eq, List.mem_append, not_or]
      exact ⟨hfirst.newline_not_mem, hsecond.newline_not_mem⟩

/-- What stands between two fixed texts. -/
theorem oneLine_between_iff {layout content : Layout} {opening closing : Bytes}
    (houtcome : layout.outcome =
      (Written.all opening).followedBy (content.outcome.followedBy (.all closing))) :
    (∃ line, Bytes.newline ∉ line ∧ layout.outcome = .all (opening ++ line ++ closing)) ↔
      content.OneLine := by
  rw [houtcome]
  constructor
  · rintro ⟨line, hline, hwhole⟩
    cases hcontent : content.outcome with
    | mk result data =>
        rw [hcontent] at hwhole
        cases result with
        | error error => cases hwhole
        | ok _ =>
            have hdata : opening ++ (data ++ closing) = opening ++ line ++ closing :=
              congrArg Outcome.state hwhole
            rw [List.append_assoc, List.append_cancel_left_eq, List.append_cancel_right_eq] at hdata
            exact (oneLine_iff hcontent).mpr (hdata ▸ hline)
  · intro honeLine
    refine ⟨content.output, honeLine.newline_not_mem, ?_⟩
    rw [outcome_eq_all honeLine.failure_eq, Written.all_followedBy_all, Written.all_followedBy_all,
      List.append_assoc]

theorem oneLine_concat (parts : List Layout) :
    (concat parts).OneLine ↔ ∀ part ∈ parts, part.OneLine := by
  induction parts with
  | nil => simp [concat]
  | cons part rest ih => rw [concat, oneLine_append, ih, List.forall_mem_cons]

theorem oneLine_concat_bytes (pieces : List Bytes) :
    (concat (pieces.map bytes)).OneLine ↔ ∀ piece ∈ pieces, Bytes.newline ∉ piece := by
  simp [oneLine_concat]

end Layout

theorem oneLine_target {destination title : String}
    (hdestination : Bytes.newline ∉ Bytes.ofText destination)
    (htitle : Bytes.newline ∉ Bytes.ofText title) :
    (Inline.target destination title).OneLine := by
  have hopening : Bytes.newline ∉ Bytes.ofText "](" := by decide
  have hquote : Bytes.newline ∉ Bytes.ofText " \"" := by decide
  have hend : Bytes.newline ∉ Bytes.ofText "\"" := by decide
  have hclosing : Bytes.newline ∉ Bytes.ofText ")" := by decide
  have htitled : (Inline.title title).OneLine := by
    unfold Inline.title
    split <;> simp [Bytes.ofText_append, hquote, hend, htitle]
  simp [Inline.target, Bytes.ofText_append, hopening, hdestination, htitled, hclosing]

/-- A node that can be shown, and ends no line itself. -/
structure Context.KeepsLine (context : Context) (node : Node) : Prop where
  unbroken : node.breaksLine = false
  supported : ∀ level, node = .emphasis level → context.options.supports level = true
  html : node.kind = .rawHtml → ∀ text ∈ node.payload context.source, Bytes.newline ∉ text

section

variable {context : Context}

theorem keepsLine_text_iff {segment : Segment} {raw soft hard : Bool} :
    context.KeepsLine (.text segment raw soft hard) ↔ (!raw && (soft || hard)) = false := by
  refine ⟨fun hkeeps => hkeeps.unbroken, fun hbreak => ⟨hbreak, ?_, ?_⟩⟩
  · rintro level ⟨⟩
  · rintro ⟨⟩

theorem keepsLine_emphasis_iff {level : Nat} :
    context.KeepsLine (.emphasis level) ↔ context.options.supports level = true := by
  refine ⟨fun hkeeps => hkeeps.supported level rfl, fun hlevel => ⟨rfl, ?_, ?_⟩⟩
  · rintro other ⟨⟩
    exact hlevel
  · rintro ⟨⟩

theorem keepsLine_rawHtml_iff {segments : List Segment} :
    context.KeepsLine (.rawHtml segments) ↔
      ∀ text ∈ segments.map (Segment.value context.source), Bytes.newline ∉ text := by
  refine ⟨fun hkeeps => hkeeps.html rfl, fun htexts => ⟨rfl, ?_, fun _ => htexts⟩⟩
  rintro level ⟨⟩

theorem keepsLine_of_kind (context : Context) {node : Node}
    (hkind : node.kind ∉ [Kind.text, .emphasis, .rawHtml]) : context.KeepsLine node := by
  refine ⟨?_, ?_, ?_⟩
  · cases node with
    | text => simp [Node.kind] at hkind
    | _ => rfl
  · rintro level rfl
    simp [Node.kind] at hkind
  · intro hhtml
    simp [hhtml] at hkind

end

namespace Renderer

/-! An inline node writes something before and after its children, or stands for itself. -/

section

variable (context : Context) (place : Place) {element : Element}
  (hinline : element.node.isInline = true)
include hinline

theorem status_inline (parts : List Layout) :
    ((standard context).render place element .enter parts).status =
      if element.kind.isOpaque then .skipChildren else .descend := by
  obtain ⟨id, node, children⟩ := element
  cases node with
  | emphasis level =>
      rw [render_emphasis]
      rfl
  | strikethrough | autoLink | codeSpan | link | image | rawHtml | text | string => rfl
  | _ => cases hinline

theorem walk_inline :
    (standard context).walk place element =
      .visit element.id .enter ((standard context).entering place element ++
        .when (!element.kind.isOpaque) ((standard context).content place element) ++
        .visit element.id .leave ((standard context).leaving place element)) := by
  have hstatus := status_inline context place hinline ((standard context).parts place element)
  have hdescend : (((standard context).render place element .enter
      ((standard context).parts place element)).status == .descend) = !element.kind.isOpaque := by
    rw [hstatus]
    cases element.kind.isOpaque <;> rfl
  rw [walk_eq, around, hdescend]
  rfl

end

theorem newline_not_mem_emphasisMark {options : Options} {phase : Phase} {level : Nat}
    (hlevel : options.supports level = true) {mark : Bytes}
    (hmark : Inline.emphasisMark? options.terminalStyling phase level = some mark) :
    Bytes.newline ∉ mark := by
  have hsome : ∀ styled, level = 1 ∨ level = 2 ∨ (styled = true ∧ level = 3) →
      ∀ data, Inline.emphasisMark? styled phase level = some data → Bytes.newline ∉ data := by
    rintro styled (rfl | rfl | ⟨rfl, rfl⟩) <;> cases phase <;> try cases styled
    all_goals
      rintro data hdata
      cases hdata
      decide
  refine hsome _ ?_ mark hmark
  simpa [Options.supports, or_assoc] using hlevel

theorem oneLine_marking {options : Options} {level : Nat} (hlevel : options.supports level = true)
    (place : Place) (phase : Phase) : (marking options place level phase).OneLine := by
  obtain ⟨mark, hmark⟩ := exists_emphasisMark? hlevel phase
  unfold marking
  split
  · exact Layout.oneLine_done
  · rw [hmark]
    exact (Layout.oneLine_bytes mark).mpr (newline_not_mem_emphasisMark hlevel hmark)

/-- Unless the level is in effect already, an emphasis can be entered only if it can be shown. -/
theorem oneLine_marking_enter {options : Options} {place : Place} {level : Nat}
    (hunmasked : options.supports level = false → Inline.isMerged place level .enter = false) :
    (marking options place level .enter).OneLine ↔ options.supports level = true := by
  cases hlevel : options.supports level with
  | true => exact iff_of_true (oneLine_marking hlevel place .enter) rfl
  | false =>
      have hfails : marking options place level .enter = .fail (.unsupportedEmphasis level) := by
        rw [marking, hunmasked hlevel, emphasisMark?_enter_eq_none hlevel]
        rfl
      rw [hfails]
      refine iff_of_false ?_ Bool.false_ne_true
      rintro ⟨hfailure, -⟩
      cases hfailure

/-! Code spans show the literals below them. -/

theorem newline_not_mem_literal {source : Source} {node : Node} (hflat : node.IsFlat source) :
    Bytes.newline ∉ Inline.literal source node := by
  have hpayload := hflat.newline_not_mem
  cases node with
  | text | string => exact hpayload (by simp [Node.kind]) _ List.mem_cons_self
  | _ => simp [Inline.literal]

theorem not_mem_codeDelimiter {byte : UInt8} (hbyte : byte ≠ Bytes.backtick) (content : Bytes) :
    byte ∉ Inline.codeDelimiter content := by
  unfold Inline.codeDelimiter
  split <;> simp [hbyte]

theorem not_mem_codePadding {byte : UInt8} (hbyte : byte ≠ Bytes.space) (content : Bytes) :
    byte ∉ Inline.codePadding content := by
  unfold Inline.codePadding
  split <;> simp [hbyte]

theorem newline_not_mem_codeLiterals {source : Source} {id : NodeId} {node : Node}
    {children : List Element}
    (hflat : ∀ inner ∈ (Element.mk id node children).all, inner.node.IsFlat source) :
    ∀ piece ∈ children.map (fun child => Inline.literal source child.node),
      Bytes.newline ∉ piece := by
  intro piece hpiece
  obtain ⟨child, hchild, rfl⟩ := List.mem_map.mp hpiece
  apply newline_not_mem_literal
  apply hflat child
  rw [Element.all_eq]
  exact List.mem_cons_of_mem _ (Element.mem_allOf hchild child.mem_all_self)

theorem oneLine_lineBreak (options : Options) (place : Place) (raw soft hard : Bool) :
    (if raw then Layout.done else Inline.lineBreak options place soft hard).OneLine ↔
      (!raw && (soft || hard)) = false := by
  have hnewline : ¬Layout.newline.OneLine := fun hline => hline.newline_not_mem (by decide)
  have hblank : ¬Layout.blankLine.OneLine := fun hline => hline.newline_not_mem (by decide)
  unfold Inline.lineBreak
  cases raw <;> cases soft <;> cases hard <;> split_ifs <;> simp_all

/-! What one node writes itself. -/

/-- The surroundings of an inline node of flat content. A level that cannot be shown is not in
effect there: the walk would have failed before. -/
structure Sheltered (context : Context) (place : Place) : Prop where
  parent : place.parent?.all (·.kind == .document) = false
  next : place.next.any (·.kind == .list) = false
  unmasked : ∀ level, context.options.supports level = false →
    Inline.isMerged place level .enter = false

section

variable {context : Context} {place : Place} (hplace : Sheltered context place) {element : Element}
  (hflat : ∀ inner ∈ element.all, inner.node.IsFlat context.source)
include hplace hflat

theorem oneLine_entering :
    ((standard context).entering place element).OneLine ↔ context.KeepsLine element.node := by
  have hown := hflat element element.mem_all_self
  obtain ⟨id, node, children⟩ := element
  have hpayload := hown.newline_not_mem
  cases node with
  | emphasis level =>
      rw [entering, render_emphasis]
      exact (oneLine_marking_enter (hplace.unmasked level)).trans keepsLine_emphasis_iff.symm
  | text segment raw soft hard =>
      have hvalue : Bytes.newline ∉ segment.value context.source :=
        hpayload (by simp [Element.node, Node.kind]) _ List.mem_cons_self
      change (Layout.bytes (segment.value context.source) ++ _).OneLine ↔ _
      rw [Layout.oneLine_append, Layout.oneLine_bytes, oneLine_lineBreak, and_iff_right hvalue]
      exact keepsLine_text_iff.symm
  | rawHtml segments =>
      change (Layout.concat (segments.map
        (Layout.bytes ∘ Segment.value context.source))).OneLine ↔ _
      rw [← List.map_map, Layout.oneLine_concat_bytes]
      exact keepsLine_rawHtml_iff.symm
  | codeSpan =>
      have hliterals := newline_not_mem_codeLiterals hflat
      refine iff_of_true ?_ (keepsLine_of_kind context (by simp [Element.node, Node.kind]))
      change (Layout.bytes (_ ++ _) ++ Layout.concat (List.map Layout.bytes _)).OneLine
      rw [Layout.oneLine_append, Layout.oneLine_bytes, List.mem_append, not_or,
        Layout.oneLine_concat_bytes]
      exact ⟨⟨not_mem_codeDelimiter (by decide) _, not_mem_codePadding (by decide) _⟩, hliterals⟩
  | image destination title alt =>
      have hopening : Bytes.newline ∉ Bytes.ofText "![" := by decide
      have htexts := hpayload (by simp [Element.node, Node.kind])
      simp only [Element.node, Node.payload, List.forall_mem_cons] at htexts
      obtain ⟨hdestination, htitle, halt, -⟩ := htexts
      refine iff_of_true ?_ (keepsLine_of_kind context (by simp [Element.node, Node.kind]))
      change ((Layout.text ("![" ++ alt) ++ Inline.target destination title) ++
        Layout.when (place.parent?.all (·.kind == .document)) .blankLine).OneLine
      rw [hplace.parent]
      simp [Layout.when, Bytes.ofText_append, hopening, halt, oneLine_target hdestination htitle]
  | autoLink url =>
      have hopening : Bytes.newline ∉ Bytes.ofText "<" := by decide
      have hurl := hpayload (by simp [Element.node, Node.kind]) _ List.mem_cons_self
      refine iff_of_true ?_ (keepsLine_of_kind context (by simp [Element.node, Node.kind]))
      change (Layout.text "<" ++ Layout.text url).OneLine
      simp [hopening, hurl]
  | string value =>
      have hvalue := hpayload (by simp [Element.node, Node.kind]) _ List.mem_cons_self
      refine iff_of_true ?_ (keepsLine_of_kind context (by simp [Element.node, Node.kind]))
      exact (Layout.oneLine_text value).mpr hvalue
  | link destination title =>
      refine iff_of_true ?_ (keepsLine_of_kind context (by simp [Element.node, Node.kind]))
      exact (Layout.oneLine_text "[").mpr (by decide)
  | strikethrough =>
      refine iff_of_true Layout.oneLine_done ?_
      exact keepsLine_of_kind context (by simp [Element.node, Node.kind])
  | _ => cases hown.isInline

theorem oneLine_leaving (hsupported : ∀ level, element.node = .emphasis level →
      context.options.supports level = true) :
    ((standard context).leaving place element).OneLine := by
  have hown := hflat element element.mem_all_self
  obtain ⟨id, node, children⟩ := element
  have hpayload := hown.newline_not_mem
  cases node with
  | emphasis level =>
      rw [leaving, render_emphasis]
      exact oneLine_marking (hsupported level rfl) place .leave
  | codeSpan =>
      change (Layout.bytes (_ ++ _)).OneLine
      rw [Layout.oneLine_bytes, List.mem_append, not_or]
      exact ⟨not_mem_codePadding (by decide) _, not_mem_codeDelimiter (by decide) _⟩
  | link destination title =>
      have htexts := hpayload (by simp [Element.node, Node.kind])
      simp only [Element.node, Node.payload, List.forall_mem_cons] at htexts
      exact oneLine_target htexts.1 htexts.2.1
  | string value =>
      change (Layout.when (place.next.any (·.kind == .list)) .newline).OneLine
      rw [hplace.next]
      exact Layout.oneLine_done
  | autoLink url => exact (Layout.oneLine_text ">").mpr (by decide)
  | strikethrough | image | rawHtml | text => exact Layout.oneLine_done
  | _ => cases hown.isInline

end

/-! The surroundings of the nodes that a walk comes to. -/

namespace Sheltered

variable {context : Context} {ancestors previous : List Node} {node : Node}

/-- At the start of a block. -/
theorem block (hblock : node.isInline = false) (hdocument : node.kind ≠ .document)
    (ancestors : List Node) : Sheltered context ⟨node :: ancestors, [], none⟩ where
  parent := by simpa [Place.parent?] using hdocument
  next := rfl
  unmasked level _ := by
    rw [Inline.isMerged, Place.inlineAncestors_cons, hblock]
    rfl

variable {next : Option Node} (hplace : Sheltered context ⟨ancestors, previous, next⟩)
include hplace

theorem before {rest : List Element}
    (hinline : ∀ inner ∈ Element.allOf rest, inner.node.isInline = true) :
    Sheltered context ⟨ancestors, previous, rest.head?.map Element.node⟩ where
  parent := hplace.parent
  next := by
    cases rest with
    | nil => rfl
    | cons other rest =>
        have hother := hinline other (by simp [Element.allOf, Element.mem_all_self])
        by_contra hlist
        have hkind : other.node.kind = .list := by simpa using hlist
        rw [Node.isInline, hkind] at hother
        cases hother
  unmasked := hplace.unmasked

variable (hsupported : ∀ level, node = .emphasis level → context.options.supports level = true)
include hsupported

theorem after : Sheltered context ⟨ancestors, node :: previous, none⟩ where
  parent := hplace.parent
  next := rfl
  unmasked level hlevel := by
    have hmerged := hplace.unmasked level hlevel
    rw [Inline.isMerged, Bool.or_eq_false_iff] at hmerged ⊢
    refine ⟨?_, hmerged.2⟩
    by_contra hown
    have hemphasis : node = .emphasis level := Node.isEmphasis_iff.mp (by simpa using hown)
    rw [hsupported level hemphasis] at hlevel
    cases hlevel

theorem inside (hinline : node.isInline = true) :
    Sheltered context ⟨node :: ancestors, [], none⟩ where
  parent := by
    cases node with
    | document => cases hinline
    | _ => rfl
  next := rfl
  unmasked level hlevel := by
    -- The node itself is the nearest emphasis that could hide one below it.
    have hmerged := (hplace.after hsupported).unmasked level hlevel
    rw [Inline.isMerged, Bool.or_eq_false_iff] at hmerged
    rw [Inline.isMerged, Place.inlineAncestors_cons, hinline]
    simpa using ⟨by simpa using hmerged.1, by simpa [Place.inlineAncestors] using hmerged.2⟩

end Sheltered

/-! Content stays on one line as long as every node that the walk comes to keeps the line. -/

variable {context : Context}

mutual

theorem oneLine_walk : (element : Element) → {place : Place} → Sheltered context place →
    (∀ inner ∈ element.all, inner.node.IsFlat context.source) →
    (((standard context).walk place element).OneLine ↔
      ∀ inner ∈ element.visited, context.KeepsLine inner.node)
  | .mk id node children, place, hplace, hflat => by
      have hinline := (hflat _ (Element.mem_all_self _)).isInline
      rw [walk_inline context place hinline, Layout.oneLine_visit, Layout.oneLine_append,
        Layout.oneLine_append, Layout.oneLine_visit, oneLine_entering hplace hflat, Element.visited,
        List.forall_mem_cons, and_assoc]
      refine and_congr_right fun hkeeps => ?_
      have hkind : (Element.mk id node children).kind = node.kind := rfl
      rw [and_iff_left (oneLine_leaving hplace hflat hkeeps.supported), hkind]
      cases node.kind.isOpaque with
      | true => simp [Layout.when]
      | false =>
          rw [Element.all_eq, List.forall_mem_cons] at hflat
          exact oneLine_walkEach children (hplace.inside hkeeps.supported hinline) hflat.2

theorem oneLine_walkEach : (elements : List Element) → {ancestors previous : List Node} →
    Sheltered context ⟨ancestors, previous, none⟩ →
    (∀ inner ∈ Element.allOf elements, inner.node.IsFlat context.source) →
    ((Layout.concat ((standard context).walkEach ancestors previous elements)).OneLine ↔
      ∀ inner ∈ Element.visitedOf elements, context.KeepsLine inner.node)
  | [], _, _, _, _ => by simp [walkEach, Layout.concat, Element.visitedOf]
  | element :: rest, ancestors, previous, hplace, hflat => by
      rw [Element.allOf, List.forall_mem_append] at hflat
      rw [walkEach, Layout.concat, Layout.oneLine_append, Element.visitedOf, List.forall_mem_append]
      have hnext := hplace.before fun inner hinner => (hflat.2 inner hinner).isInline
      rw [oneLine_walk element hnext hflat.1]
      refine and_congr_right fun hfirst => ?_
      have hkeeps := hfirst element element.mem_visited_self
      exact oneLine_walkEach rest (hplace.after hkeeps.supported) hflat.2

end

end Renderer

end Render

end CanonicalMarkdown
