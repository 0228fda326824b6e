import CanonicalMarkdown.Proofs.Render.InlineContent

namespace CanonicalMarkdown

open Document Output

/-! Reading text byte by byte, to find out whether a blank line is ended in it. -/

namespace Bytes

/-- What is known of the line after the next byte: that it is still blank, or that it is not. There
is no answer once a blank line was ended. -/
def readOn (blank : Bool) (byte : UInt8) : Option Bool :=
  if byte = newline then if blank then none else some true
  else some (blank && isBlank byte)

def scan (blank : Bool) (data : Bytes) : Option Bool := data.foldlM readOn blank

theorem scan_append (blank : Bool) (first second : Bytes) :
    scan blank (first ++ second) = (scan blank first).bind (scan · second) :=
  List.foldlM_append

theorem scan_text {text : Bytes} (htext : newline ∉ text) (blank : Bool) :
    scan blank text = some (blank && text.isBlankLine) := by
  induction text generalizing blank with
  | nil => simp [scan, isBlankLine]
  | cons byte text ih =>
      rw [List.mem_cons, not_or] at htext
      have hbyte : readOn blank byte = some (blank && isBlank byte) := if_neg (Ne.symm htext.1)
      change (readOn blank byte).bind (scan · text) = _
      rw [hbyte, Option.bind_some, ih htext.2, isBlankLine, isBlankLine, List.all_cons,
        Bool.and_assoc]

/-- A text read from the start of a line, whose last line is not blank, has no blank lines. -/
theorem not_blank_of_scan {data : Bytes} (hscan : scan true data = some false) :
    ∀ line ∈ lines (data ++ [newline]), line.isBlankLine = false := by
  induction data using line_induction with
  | rest text htext =>
      rw [scan_text htext, Bool.true_and, Option.some.injEq] at hscan
      rw [lines_line htext]
      simp [lines, isBlankLine_append, hscan]
  | line text data htext ih =>
      rw [scan_append, scan_text htext, Option.bind_some, Bool.true_and] at hscan
      change (readOn text.isBlankLine newline).bind (scan · data) = _ at hscan
      cases hblank : text.isBlankLine with
      | true =>
          rw [hblank] at hscan
          cases hscan
      | false =>
          rw [hblank] at hscan
          rw [List.append_assoc, List.cons_append, lines_line htext, List.forall_mem_cons]
          refine ⟨?_, ih hscan⟩
          rw [isBlankLine_append, hblank, Bool.false_and]

/-- The same of a text that goes on in a line that is not blank. -/
theorem not_blank_tail_of_scan {data : Bytes} (hscan : scan false data = some false) :
    ∀ line ∈ (lines (data ++ [newline])).tail, line.isBlankLine = false := by
  induction data using line_induction with
  | rest text htext =>
      rw [lines_line htext]
      simp [lines]
  | line text data htext _ =>
      rw [scan_append, scan_text htext, Option.bind_some, Bool.false_and] at hscan
      rw [List.append_assoc, List.cons_append, lines_line htext, List.tail_cons]
      exact not_blank_of_scan hscan

end Bytes

namespace Render

/-- The same with line breaks kept, or made paragraph breaks. -/
def Context.rewrapped (context : Context) (hardWraps : Bool) : Context :=
  { context with options := { context.options with hardWraps } }

/-! The inline content of a tight item. -/

/-- An inline node whose texts stand on one line each, and which shows something if it is a text. -/
structure IsTightInline (source : Source) (element : Element) : Prop where
  isInline : element.node.isInline = true
  newline_not_mem : ∀ text ∈ element.node.payload source, Bytes.newline ∉ text
  not_blank : ∀ segment raw soft hard, element.node = .text segment raw soft hard →
    (segment.value source).isBlankLine = false
  level : ∀ level, element.node = .emphasis level → level = 1 ∨ level = 2
  leaf : element.kind ∈ [Kind.autoLink, .image, .rawHtml] → element.children = []

/-- Whether the last text ends a line, so that the line after it is blank so far. -/
def endsBlank (blank : Bool) (inners : List Element) : Bool :=
  ((inners.filter (·.kind == .text)).getLast?.map (·.node.breaksLine)).getD blank

theorem endsBlank_append (blank : Bool) (first second : List Element) :
    endsBlank blank (first ++ second) = endsBlank (endsBlank blank first) second := by
  unfold endsBlank
  rw [List.filter_append, List.getLast?_append]
  cases (second.filter (·.kind == .text)).getLast? <;> rfl

theorem endsBlank_mono {blank other : Bool} (hle : blank = true → other = true)
    {inners : List Element} (hblank : endsBlank blank inners = true) :
    endsBlank other inners = true := by
  unfold endsBlank at hblank ⊢
  cases hlast : (inners.filter (·.kind == .text)).getLast? with
  | none =>
      rw [hlast] at hblank
      exact hle hblank
  | some text =>
      rw [hlast] at hblank
      exact hblank

/-- A layout goes through and ends no blank line. Wherever it starts, its last line is not blank, or
else it is known to be from the texts that were laid out. -/
structure Layout.Fills (inners : List Element) (layout : Layout) : Prop where
  failure_eq : layout.failure = none
  exists_scan : ∀ blank, ∃ after, Bytes.scan blank layout.output = some after ∧
    (after = true → endsBlank blank inners = true)

namespace Layout.Fills

variable {first second : List Element} {layout rest : Layout}

theorem append (hfirst : layout.Fills first) (hsecond : rest.Fills second) :
    (layout ++ rest).Fills (first ++ second) where
  failure_eq := by
    rw [failure_append, hfirst.failure_eq, hsecond.failure_eq, Option.none_or]
  exists_scan blank := by
    obtain ⟨middle, hmiddle, hfirstEnd⟩ := hfirst.exists_scan blank
    obtain ⟨after, hafter, hsecondEnd⟩ := hsecond.exists_scan middle
    refine ⟨after, ?_, ?_⟩
    · rw [output_append hfirst.failure_eq, Bytes.scan_append, hmiddle, Option.bind_some, hafter]
    · intro hblank
      rw [endsBlank_append]
      exact endsBlank_mono hfirstEnd (hsecondEnd hblank)

theorem visit (hlayout : layout.Fills first) (node : NodeId) (phase : Phase) :
    (Layout.visit node phase layout).Fills first :=
  ⟨hlayout.failure_eq, hlayout.exists_scan⟩

/-- What is no text leaves the line as it is. -/
theorem of_oneLine (hline : layout.OneLine) (hkinds : ∀ inner ∈ first, inner.kind ≠ .text) :
    layout.Fills first where
  failure_eq := hline.failure_eq
  exists_scan blank := by
    have hnone : first.filter (·.kind == .text) = [] := by simpa using hkinds
    refine ⟨_, Bytes.scan_text hline.newline_not_mem blank, ?_⟩
    rw [endsBlank, hnone, Bool.and_eq_true]
    exact fun hblank => hblank.1

/-- Once something is shown, no text is needed to know that the line is not blank. -/
theorem of_not_blank (hline : layout.OneLine) (hshown : layout.output.isBlankLine = false)
    (inners : List Element) : layout.Fills inners where
  failure_eq := hline.failure_eq
  exists_scan blank := by
    refine ⟨_, Bytes.scan_text hline.newline_not_mem blank, ?_⟩
    rw [hshown, Bool.and_false]
    intro hblank
    cases hblank

end Layout.Fills

namespace IsTightInline

variable {source : Source} {element : Element} (htight : IsTightInline source element)
include htight

theorem isFlat : element.node.IsFlat source :=
  ⟨htight.isInline, fun _ => htight.newline_not_mem⟩

theorem supported (options : Options) {level : Nat} (hnode : element.node = .emphasis level) :
    options.supports level = true := by
  rcases htight.level level hnode with rfl | rfl <;> rfl

theorem keepsLine {context : Context} (hsource : context.source = source)
    (hkind : element.kind ≠ .text) : context.KeepsLine element.node where
  unbroken := by
    obtain ⟨id, node, children⟩ := element
    cases node with
    | text => exact absurd rfl hkind
    | _ => rfl
  supported _ hnode := htight.supported context.options hnode
  html _ := by
    rw [hsource]
    exact htight.newline_not_mem

end IsTightInline

namespace Renderer

section

variable {context : Context} {place : Place} (hplace : Sheltered context place)
  {element : Element} (htight : ∀ inner ∈ element.all, IsTightInline context.source inner)
include hplace htight

omit hplace in
/-- In a tight item every break is one newline. -/
theorem fills_entering_text (hblock : place.isInTextBlock = true) (hkind : element.kind = .text) :
    ((standard context).entering place element).Fills [element] := by
  have hown := htight element element.mem_all_self
  obtain ⟨id, node, children⟩ := element
  cases node with
  | text segment raw soft hard =>
      let value := segment.value context.source
      let breaks := !raw && (soft || hard)
      let ending := if raw then Layout.done else Inline.lineBreak context.options place soft hard
      have hvalue (blank : Bool) : Bytes.scan blank value = some false := by
        rw [Bytes.scan_text (hown.newline_not_mem _ List.mem_cons_self),
          hown.not_blank segment raw soft hard rfl, Bool.and_false]
      have hending : ending.outcome = .all (if breaks then [Bytes.newline] else []) := by
        simp only [ending, breaks, Inline.lineBreak, hblock, Bool.not_true, Bool.and_false]
        cases raw <;> cases soft <;> cases hard <;> rfl
      have houtcome : (Layout.bytes value ++ ending).outcome =
          .all (value ++ if breaks then [Bytes.newline] else []) := by
        rw [Layout.outcome_append, Layout.outcome_bytes, hending, Written.all_followedBy_all]
      have hlast (blank : Bool) :
          endsBlank blank [.mk id (.text segment raw soft hard) children] = breaks := rfl
      refine ⟨congrArg Outcome.failure houtcome, fun blank => ⟨breaks, ?_, fun hblank => ?_⟩⟩
      · have houtput : ((standard context).entering place
            (.mk id (.text segment raw soft hard) children)).output =
              value ++ if breaks then [Bytes.newline] else [] := congrArg Outcome.state houtcome
        rw [houtput, Bytes.scan_append, hvalue, Option.bind_some]
        cases breaks <;> rfl
      · rw [hlast, hblank]
  | _ => cases hkind

theorem fills_entering (hblock : place.isInTextBlock = true) :
    ((standard context).entering place element).Fills [element] := by
  by_cases hkind : element.kind = .text
  · exact fills_entering_text htight hblock hkind
  · have hkeeps := (htight element element.mem_all_self).keepsLine rfl hkind
    have hline := oneLine_entering hplace fun inner hinner => (htight inner hinner).isFlat
    exact .of_oneLine (hline.mpr hkeeps) (by simpa using hkind)

/-- The delimiters of a code span are shown, whatever is below it. -/
theorem fills_entering_codeSpan (hspan : element.node = .codeSpan) (inners : List Element) :
    ((standard context).entering place element).Fills inners := by
  have hkeeps : context.KeepsLine element.node :=
    keepsLine_of_kind context (by simp [hspan, Node.kind])
  have hline := oneLine_entering hplace fun inner hinner => (htight inner hinner).isFlat
  refine .of_not_blank (hline.mpr hkeeps) ?_ inners
  obtain ⟨id, node, children⟩ := element
  obtain rfl : node = .codeSpan := hspan
  change (Layout.bytes (_ ++ _) ++ Layout.concat (List.map Layout.bytes _)).output.isBlankLine = _
  have hdelimiter (content : Bytes) : (Inline.codeDelimiter content).isBlankLine = false := by
    unfold Inline.codeDelimiter
    split <;> rfl
  rw [Layout.output_append rfl, Layout.output, Layout.outcome_bytes]
  simp [Written.all, Bytes.isBlankLine_append, hdelimiter]

theorem fills_leaving : ((standard context).leaving place element).Fills [] := by
  refine .of_oneLine (oneLine_leaving hplace (fun inner hinner => (htight inner hinner).isFlat) ?_)
    (by simp)
  intro level
  exact (htight element element.mem_all_self).supported context.options

end

variable {context : Context}

mutual

theorem fills_walk : (element : Element) → {place : Place} → Sheltered context place →
    place.isInTextBlock = true → (∀ inner ∈ element.all, IsTightInline context.source inner) →
    ((standard context).walk place element).Fills element.all
  | .mk id node children, place, hplace, hblock, htight => by
      have hown := htight _ (Element.mem_all_self _)
      obtain ⟨before, after, hall, hentering, hcontent⟩ : ∃ before after,
          (Element.mk id node children).all = before ++ after ∧
          ((standard context).entering place (.mk id node children)).Fills before ∧
          (Layout.when (!node.kind.isOpaque)
            ((standard context).content place (.mk id node children))).Fills after := by
        by_cases hspan : node = .codeSpan
        · refine ⟨_, [], (List.append_nil _).symm, fills_entering_codeSpan hplace htight hspan _,
            ?_⟩
          rw [hspan]
          exact .of_oneLine Layout.oneLine_done (by simp)
        · refine ⟨[.mk id node children], _, Element.all_eq _,
            fills_entering hplace htight hblock, ?_⟩
          cases hisOpaque : node.kind.isOpaque with
          | true =>
              have hkind : node.kind ∈ [Kind.autoLink, .image, .rawHtml] := by
                cases node with
                | autoLink | image | rawHtml => simp [Node.kind]
                | codeSpan => exact absurd rfl hspan
                | _ => cases hisOpaque
              obtain rfl : children = [] := hown.leaf hkind
              exact .of_oneLine Layout.oneLine_done (by simp [Element.children, Element.allOf])
          | false =>
              rw [Element.all_eq, List.forall_mem_cons] at htight
              refine fills_walkEach children (hplace.inside ?_ hown.isInline) ?_ htight.2
              · exact fun level => hown.supported context.options
              · rw [Place.isInTextBlock_cons, if_pos hown.isInline]
                exact hblock
      rw [walk_inline context place hown.isInline, hall, ← List.append_nil (before ++ after)]
      have hleaving := (fills_leaving hplace htight).visit id .leave
      exact ((hentering.append hcontent).append hleaving).visit id .enter

theorem fills_walkEach : (elements : List Element) → {ancestors previous : List Node} →
    Sheltered context ⟨ancestors, previous, none⟩ →
    Place.isInTextBlock ⟨ancestors, previous, none⟩ = true →
    (∀ inner ∈ Element.allOf elements, IsTightInline context.source inner) →
    (Layout.concat ((standard context).walkEach ancestors previous elements)).Fills
      (Element.allOf elements)
  | [], _, _, _, _, _ => .of_oneLine Layout.oneLine_done (by simp [Element.allOf])
  | element :: rest, ancestors, previous, hplace, hblock, htight => by
      rw [Element.allOf, List.forall_mem_append] at htight
      have hnext := hplace.before fun inner hinner => (htight.2 inner hinner).isInline
      have hsupported (level : Nat) (hnode : element.node = .emphasis level) :=
        (htight.1 element element.mem_all_self).supported context.options hnode
      have hfirst := fills_walk element hnext hblock htight.1
      have hrest := fills_walkEach rest (hplace.after hsupported) hblock htight.2
      exact hfirst.append hrest

end

/-! In a tight item it makes no difference whether line breaks become paragraph breaks. -/

variable (hardWraps : Bool)

theorem render_rewrapped {place : Place} (hblock : place.isInTextBlock = true) {element : Element}
    (hinline : element.node.isInline = true) (phase : Phase) (parts : List Layout) :
    (standard (context.rewrapped hardWraps)).render place element phase parts =
      (standard context).render place element phase parts := by
  obtain ⟨id, node, children⟩ := element
  cases node with
  | text segment raw soft hard =>
      change Inline.text _ = Inline.text _
      simp only [Inline.text, Inline.lineBreak, hblock, Bool.not_true, Bool.and_false]
      cases phase <;> rfl
  | strikethrough | autoLink | codeSpan | emphasis | link | image | rawHtml | string => rfl
  | _ => cases hinline

mutual

theorem walk_rewrapped : (element : Element) → {place : Place} → place.isInTextBlock = true →
    (∀ inner ∈ element.all, inner.node.isInline = true) →
    (standard (context.rewrapped hardWraps)).walk place element =
      (standard context).walk place element
  | .mk id node children, place, hblock, hinline => by
      rw [Element.all_eq, List.forall_mem_cons] at hinline
      have hbelow : Place.isInTextBlock ⟨node :: place.ancestors, [], none⟩ = true := by
        rw [Place.isInTextBlock_cons]
        exact (if_pos hinline.1).trans hblock
      have hparts := walkEach_rewrapped children hbelow hinline.2
      simp only [walk, around, hparts, render_rewrapped hardWraps hblock hinline.1]

theorem walkEach_rewrapped : (elements : List Element) → {ancestors previous : List Node} →
    Place.isInTextBlock ⟨ancestors, previous, none⟩ = true →
    (∀ inner ∈ Element.allOf elements, inner.node.isInline = true) →
    (standard (context.rewrapped hardWraps)).walkEach ancestors previous elements =
      (standard context).walkEach ancestors previous elements
  | [], _, _, _, _ => rfl
  | element :: rest, ancestors, previous, hblock, hinline => by
      rw [Element.allOf, List.forall_mem_append] at hinline
      have hplace :
          Place.isInTextBlock ⟨ancestors, previous, rest.head?.map Element.node⟩ = true := hblock
      have hothers :
          Place.isInTextBlock ⟨ancestors, element.node :: previous, none⟩ = true := hblock
      rw [walkEach, walkEach, walk_rewrapped element hplace hinline.1,
        walkEach_rewrapped rest hothers hinline.2]

end

end Renderer

/-! The text of a tight item as a whole. -/

structure IsTightText (source : Source) (block : Element) : Prop where
  node_eq : block.node = .textBlock
  isTight : ∀ inner ∈ block.descendants, IsTightInline source inner
  unbroken : ∀ last ∈ (block.descendants.filter (·.kind == .text)).getLast?,
    last.node.breaksLine = false

namespace IsTightText

variable {context : Context} {block : Element} (htight : IsTightText context.source block)
  (place : Place)
include htight

theorem isInTextBlock : Place.isInTextBlock ⟨block.node :: place.ancestors, [], none⟩ = true := by
  rw [htight.node_eq, Place.isInTextBlock_cons]
  rfl

theorem fills_content :
    ((Renderer.standard context).content place block).Fills block.descendants := by
  have hplace : Renderer.Sheltered context ⟨block.node :: place.ancestors, [], none⟩ := by
    rw [htight.node_eq]
    exact .block rfl (by decide) place.ancestors
  exact Renderer.fills_walkEach block.children hplace (htight.isInTextBlock place) htight.isTight

/-- After something that is not blank the text ends no blank line, and none is open at its end. -/
theorem scan_content :
    Bytes.scan false ((Renderer.standard context).content place block).output = some false := by
  obtain ⟨after, hscan, hblank⟩ := (htight.fills_content place).exists_scan false
  have hends : endsBlank false block.descendants = false := by
    unfold endsBlank
    cases hlast : (block.descendants.filter (·.kind == .text)).getLast? with
    | none => rfl
    | some last => exact htight.unbroken last hlast
  cases after with
  | false => exact hscan
  | true => exact absurd (hblank rfl) (by simp [hends])

theorem content_rewrapped (hardWraps : Bool) :
    (Renderer.standard (context.rewrapped hardWraps)).content place block =
      (Renderer.standard context).content place block := by
  refine congrArg Layout.concat ?_
  exact Renderer.walkEach_rewrapped hardWraps block.children (htight.isInTextBlock place)
    fun inner hinner => (htight.isTight inner hinner).isInline

end IsTightText

end Render

end CanonicalMarkdown
