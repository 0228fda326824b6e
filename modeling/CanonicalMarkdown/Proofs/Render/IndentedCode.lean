import CanonicalMarkdown.Proofs.Render.Fence
import CanonicalMarkdown.Proofs.Render.InlineContent

namespace CanonicalMarkdown

open Document Output

theorem Render.Layout.outcome_concat_bytes (pieces : List Bytes) :
    (concat (pieces.map bytes)).outcome = .all pieces.flatten := by
  induction pieces with
  | nil => rfl
  | cons piece rest ih =>
      rw [List.map_cons, concat, outcome_append, outcome_bytes, ih]
      rfl

namespace Render

namespace Block

/-! Indentation and the part of it that is taken off. -/

theorem indentation_concat_newline (text : Bytes) :
    indentation (text ++ [Bytes.newline]) = indentation text := by
  induction text with
  | nil => rfl
  | cons byte text ih =>
      simp only [indentation, List.cons_append, List.takeWhile_cons] at ih ⊢
      split
      · rw [List.length_cons, List.length_cons, ih]
      · rfl

section

variable {line : Bytes} {strip : Nat} (hstrip : strip ≤ indentation line)
include hstrip

theorem isIndentation_of_mem_take {byte : UInt8} (hbyte : byte ∈ line.take strip) :
    isIndentation byte = true := by
  have hmargin : line.take strip = (line.takeWhile isIndentation).take strip := by
    conv_lhs => rw [← List.takeWhile_append_dropWhile (p := isIndentation) (l := line)]
    exact List.take_append_of_le_length hstrip
  rw [hmargin] at hbyte
  exact List.mem_takeWhile_imp (List.mem_of_mem_take hbyte)

theorem length_take_indentation : (line.take strip).length = strip := by
  have hlength : indentation line ≤ line.length := (List.takeWhile_prefix _).length_le
  rw [List.length_take]
  omega

theorem indentation_drop : indentation (line.drop strip) = indentation line - strip := by
  have hwhole : line.takeWhile isIndentation =
      line.take strip ++ (line.drop strip).takeWhile isIndentation := by
    conv_lhs => rw [← List.take_append_drop strip line]
    exact List.takeWhile_append_of_pos fun byte hbyte => isIndentation_of_mem_take hstrip hbyte
  have hlength := congrArg List.length hwhole
  rw [List.length_append, length_take_indentation hstrip] at hlength
  change indentation line = strip + indentation (line.drop strip) at hlength
  omega

theorem isBlankLine_drop : Bytes.isBlankLine (line.drop strip) = Bytes.isBlankLine line := by
  have hmargin : Bytes.isBlankLine (line.take strip) = true := by
    rw [Bytes.isBlankLine, List.all_eq_true]
    intro byte hbyte
    have hindentation := isIndentation_of_mem_take hstrip hbyte
    rw [isIndentation, Bool.or_eq_true, beq_iff_eq, beq_iff_eq] at hindentation
    rcases hindentation with rfl | rfl <;> rfl
  have hwhole : Bytes.isBlankLine line =
      (Bytes.isBlankLine (line.take strip) && Bytes.isBlankLine (line.drop strip)) := by
    conv_lhs => rw [← List.take_append_drop strip line]
    exact Bytes.isBlankLine_append _ _
  rw [hwhole, hmargin, Bool.true_and]

end

/-! The least indentation. -/

theorem commonIndent_le {code line : Bytes} (hline : line ∈ code.lines)
    (hblank : line.isBlankLine = false) : commonIndent code ≤ indentation line := by
  apply List.min?_getD_le_of_mem
  exact List.mem_map_of_mem (List.mem_filter.mpr ⟨hline, by simp [hblank]⟩)

theorem exists_indentation_eq {code line : Bytes} (hline : line ∈ code.lines)
    (hblank : line.isBlankLine = false) :
    ∃ least ∈ code.lines, least.isBlankLine = false ∧ indentation least = commonIndent code := by
  have hmem : indentation line ∈ (code.lines.filter (!Bytes.isBlankLine ·)).map indentation :=
    List.mem_map_of_mem (List.mem_filter.mpr ⟨hline, by simp [hblank]⟩)
  cases hleast : ((code.lines.filter (!Bytes.isBlankLine ·)).map indentation).min? with
  | none =>
      rw [List.min?_eq_none_iff.mp hleast] at hmem
      cases hmem
  | some count =>
      obtain ⟨least, hleastMem, hcount⟩ := List.mem_map.mp (List.min?_mem hleast)
      obtain ⟨hlines, hshown⟩ := List.mem_filter.mp hleastMem
      refine ⟨least, hlines, by simpa using hshown, ?_⟩
      rw [commonIndent, hleast, hcount]
      rfl

/-- It makes no difference whether the lines are taken with their newlines or without. -/
theorem commonIndent_eq_splitOn (code : Bytes) :
    commonIndent code =
      (((code.splitOn Bytes.newline).filter (!Bytes.isBlankLine ·)).map
        indentation).min?.getD 0 := by
  have hlines : (code.lines.filter (!Bytes.isBlankLine ·)).map indentation =
      ((code.splitOn Bytes.newline).filter (!Bytes.isBlankLine ·)).map indentation := by
    induction code using Bytes.line_induction with
    | rest text htext =>
        rw [List.splitOn_eq_singleton htext]
        by_cases hnonempty : text = []
        · subst hnonempty
          rfl
        · rw [Bytes.lines_rest htext hnonempty]
    | line text data htext ih =>
        have hpieces : (text ++ Bytes.newline :: data).splitOn Bytes.newline =
            text :: data.splitOn Bytes.newline := by
          have hsplit : (text ++ Bytes.newline :: data).splitOnP (· == Bytes.newline) = _ :=
            List.splitOnP_append_cons text data (beq_self_eq_true _)
          rwa [← List.splitOn_eq_splitOnP, ← List.splitOn_eq_splitOnP, ← List.splitOn_eq_splitOnP,
            List.splitOn_eq_singleton htext] at hsplit
        have hblank : Bytes.isBlankLine (text ++ [Bytes.newline]) = Bytes.isBlankLine text := by
          rw [Bytes.isBlankLine_append]
          exact Bool.and_true _
        rw [Bytes.lines_line htext, hpieces, List.filter_cons, List.filter_cons, hblank]
        split
        · rw [List.map_cons, List.map_cons, indentation_concat_newline, ih]
        · exact ih
  rw [commonIndent, hlines]

/-! Lines that are moved as a whole: their indentation is taken off, and something else put in front
of them. -/

def shifted (front : Bytes) (strip : Nat) (line : Bytes) : Bytes :=
  if line.isBlankLine then [Bytes.newline] else front ++ line.drop strip

theorem rebased_eq (code : Bytes) :
    rebased code = code.lines.map (shifted [] (commonIndent code)) :=
  rfl

theorem shifted_of_blank {line : Bytes} (hblank : line.isBlankLine = true) (front : Bytes)
    (strip : Nat) : shifted front strip line = [Bytes.newline] :=
  if_pos hblank

theorem shifted_of_not_blank {line : Bytes} (hblank : line.isBlankLine = false) (front : Bytes)
    (strip : Nat) : shifted front strip line = front ++ line.drop strip :=
  if_neg (by simp [hblank])

/-- A line without its indentation by the given width, if there is anything on it. -/
def unindented (width : Nat) (line : Bytes) : Bytes :=
  if line.isBlankLine then line else line.drop width

section

variable {line : Bytes} {strip : Nat}
  (hstrip : line.isBlankLine = false → strip ≤ indentation line)
include hstrip

theorem shifted_shifted (front : Bytes) :
    shifted front 0 (shifted [] strip line) = shifted front strip line := by
  cases hblank : line.isBlankLine with
  | true =>
      rw [shifted_of_blank hblank, shifted_of_blank hblank]
      rfl
  | false =>
      have hdrop := (isBlankLine_drop (hstrip hblank)).trans hblank
      rw [shifted_of_not_blank hblank, shifted_of_not_blank hblank, List.nil_append,
        shifted_of_not_blank hdrop, List.drop_zero]

theorem unindented_shifted (width : Nat) :
    unindented width (shifted (Layer.spaces width) strip line) = shifted [] strip line := by
  cases hblank : line.isBlankLine with
  | true =>
      rw [shifted_of_blank hblank, shifted_of_blank hblank]
      rfl
  | false =>
      have hdrop := (isBlankLine_drop (hstrip hblank)).trans hblank
      have hshown : Bytes.isBlankLine (Layer.spaces width ++ line.drop strip) = false := by
        rw [Bytes.isBlankLine_append, hdrop, Bool.and_false]
      rw [shifted_of_not_blank hblank, shifted_of_not_blank hblank, unindented,
        if_neg (by simp [hshown])]
      simp [Layer.spaces]

theorem margined_shifted (width : Nat) :
    Layer.margined (Layer.spaces width) (shifted [] strip line) =
      shifted (Layer.spaces width) strip line := by
  cases hblank : line.isBlankLine with
  | true =>
      rw [shifted_of_blank hblank, shifted_of_blank hblank, Layer.margined, if_pos rfl,
        Layer.rdropWhile_spaces]
      rfl
  | false =>
      have hdrop := (isBlankLine_drop (hstrip hblank)).trans hblank
      have hnewline : line.drop strip ≠ [Bytes.newline] := by
        intro hline
        rw [hline] at hdrop
        cases hdrop
      rw [shifted_of_not_blank hblank, shifted_of_not_blank hblank, List.nil_append,
        Layer.margined, if_neg hnewline]

end

/-- Shifted lines are lines again. -/
theorem lines_shifted {front : Bytes} (hfront : Bytes.newline ∉ front) {strip : Nat} (code : Bytes)
    (hstrip : ∀ line ∈ code.lines, line.isBlankLine = false → strip ≤ indentation line) :
    Bytes.lines (code.lines.map (shifted front strip)).flatten =
      code.lines.map (shifted front strip) := by
  have hdropped {text : Bytes} (htext : Bytes.newline ∉ text) :
      Bytes.newline ∉ front ++ text.drop strip := by
    rw [List.mem_append, not_or]
    exact ⟨hfront, fun hmem => htext (List.mem_of_mem_drop hmem)⟩
  induction code using Bytes.line_induction with
  | rest text htext =>
      by_cases hnonempty : text = []
      · subst hnonempty
        rfl
      · have hlines := Bytes.lines_rest htext hnonempty
        rw [hlines, List.forall_mem_singleton] at hstrip
        rw [hlines, List.map_singleton, List.flatten_singleton]
        cases hblank : text.isBlankLine with
        | true =>
            rw [shifted_of_blank hblank]
            rfl
        | false =>
            have hdrop := (isBlankLine_drop (hstrip hblank)).trans hblank
            rw [shifted_of_not_blank hblank]
            refine Bytes.lines_rest (hdropped htext) ?_
            rw [ne_eq, List.append_eq_nil_iff, not_and]
            intro _ hnil
            rw [hnil] at hdrop
            cases hdrop
  | line text data htext ih =>
      rw [Bytes.lines_line htext, List.forall_mem_cons] at hstrip
      obtain ⟨other, hother, hshifted⟩ : ∃ other, Bytes.newline ∉ other ∧
          shifted front strip (text ++ [Bytes.newline]) = other ++ [Bytes.newline] := by
        cases hblank : Bytes.isBlankLine (text ++ [Bytes.newline]) with
        | true => exact ⟨[], by simp, shifted_of_blank hblank _ _⟩
        | false =>
            have hlength : strip ≤ text.length := by
              have hindent := hstrip.1 hblank
              rw [indentation_concat_newline] at hindent
              exact hindent.trans (List.takeWhile_prefix _).length_le
            refine ⟨front ++ text.drop strip, hdropped htext, ?_⟩
            rw [shifted_of_not_blank hblank, List.drop_append_of_le_length hlength,
              List.append_assoc]
      rw [Bytes.lines_line htext, List.map_cons, List.flatten_cons, hshifted, List.append_assoc,
        List.singleton_append, Bytes.lines_line hother, ih hstrip.2]

/-! Code that was rebased has no indentation to take off. -/

theorem lines_rebased (code : Bytes) : Bytes.lines (rebased code).flatten = rebased code :=
  lines_shifted List.not_mem_nil code fun _ hline => commonIndent_le hline

theorem commonIndent_rebased (code : Bytes) : commonIndent (rebased code).flatten = 0 := by
  by_cases hshown : ∃ line ∈ code.lines, line.isBlankLine = false
  · obtain ⟨line, hline, hblank⟩ := hshown
    obtain ⟨least, hleast, hblank, hindent⟩ := exists_indentation_eq hline hblank
    have hstrip := hindent.symm.le
    have hmem : least.drop (commonIndent code) ∈ Bytes.lines (rebased code).flatten := by
      rw [lines_rebased, rebased_eq, List.mem_map]
      exact ⟨least, hleast, shifted_of_not_blank hblank _ _⟩
    have hzero := commonIndent_le hmem ((isBlankLine_drop hstrip).trans hblank)
    rw [indentation_drop hstrip, hindent, Nat.sub_self] at hzero
    exact Nat.le_zero.mp hzero
  · have hnone : (Bytes.lines (rebased code).flatten).filter (!Bytes.isBlankLine ·) = [] := by
      rw [lines_rebased, rebased_eq, List.filter_eq_nil_iff, List.forall_mem_map]
      intro line hline
      have hblank : line.isBlankLine = true := by
        by_contra hfalse
        exact hshown ⟨line, hline, by simpa using hfalse⟩
      rw [shifted_of_blank hblank]
      decide
    rw [commonIndent, hnone]
    rfl

/-- What is shown of the code. -/
def indentedLines (code : Bytes) : List Bytes :=
  code.lines.map (shifted (Layer.spaces codeIndent) (commonIndent code))

theorem unindented_indentedLines (code : Bytes) :
    (Bytes.lines (indentedLines code).flatten).map (unindented codeIndent) = rebased code := by
  have hspaces : Bytes.newline ∉ Layer.spaces codeIndent := Layer.newline_not_mem_spaces _
  rw [indentedLines, lines_shifted hspaces code fun _ hline => commonIndent_le hline,
    rebased_eq, List.map_map]
  apply List.map_congr_left
  intro line hline
  exact unindented_shifted (commonIndent_le hline) codeIndent

theorem indentedLines_rebased (code : Bytes) :
    indentedLines (rebased code).flatten = indentedLines code := by
  rw [indentedLines, lines_rebased, commonIndent_rebased, rebased_eq, List.map_map]
  apply List.map_congr_left
  intro line hline
  exact shifted_shifted (commonIndent_le hline) _

theorem outcome_indentedCode (code : Bytes) :
    (indentedCode code).outcome = .all (Bytes.newline :: (indentedLines code).flatten) := by
  have hlayer : (Layer.indent codeIndent).atLineStart.emit (rebased code).flatten =
      (indentedLines code).flatten := by
    change Layer.marked (Layer.spaces codeIndent) true _ = _
    rw [Layer.marked_eq_marginedFrom, Layer.marginedFrom_true, lines_rebased, rebased_eq,
      ← List.flatMap_id, indentedLines, List.flatMap_map, List.flatMap_map]
    apply List.flatMap_congr
    intro line hline
    exact margined_shifted (commonIndent_le hline) codeIndent
  rw [indentedCode, Layout.outcome_append, Layout.outcome_newline, Layout.outcome_through,
    Layout.outcome_concat_bytes]
  change _ = Written.all ([Bytes.newline] ++ _)
  rw [← hlayer]
  rfl

theorem indentedLines_flatten (code : Bytes) :
    (indentedLines code).flatten = code.lines.flatMap fun line =>
      if line.isBlankLine then [Bytes.newline]
      else List.replicate 4 Bytes.space ++ line.drop (commonIndent code) :=
  List.flatMap_def.symm

end Block

namespace Renderer

variable (renderer : Renderer) {place : Place} {element : Element} {lines : List Segment}
  (hbuiltIn : renderer.overrides.find? .codeBlock = none)
  (hcode : element.node = .codeBlock lines) (hlist : place.isInList = true)
include hbuiltIn hcode hlist

theorem render_indented (parts : List Layout) :
    renderer.render place element .enter parts =
        .descend (Block.indentedCode (renderer.context.join lines)) ∧
      renderer.render place element .leave parts = .nothing := by
  obtain ⟨id, node, children⟩ := element
  obtain rfl : node = .codeBlock lines := hcode
  have hkind : renderer.overrides.find? (Element.mk id (.codeBlock lines) children).kind = none :=
    hbuiltIn
  rw [renderer.render_builtIn place hkind, renderer.render_builtIn place hkind]
  simp only [render_standard, builtIn, Element.kind, Element.node, Node.kind, Block.codeBlock,
    hlist]
  exact ⟨rfl, rfl⟩

theorem outcome_indented :
    (renderer.entering place element).outcome =
        .all (Bytes.newline ::
          (Block.indentedLines (renderer.context.join lines)).flatten) ∧
      (renderer.leaving place element).outcome = .all [] := by
  obtain ⟨henter, hleave⟩ :=
    renderer.render_indented hbuiltIn hcode hlist (renderer.parts place element)
  rw [entering, leaving, henter, hleave]
  exact ⟨Block.outcome_indentedCode _, rfl⟩

theorem outcome_walk_indented_leaf (hleaf : element.children = []) :
    (renderer.walk place element).outcome = (renderer.entering place element).outcome := by
  obtain ⟨henter, hleave⟩ :=
    renderer.render_indented hbuiltIn hcode hlist (renderer.parts place element)
  have hparts : renderer.parts place element = [] := by
    rw [parts, hleaf]
    rfl
  rw [walk_eq, around_of_descend place henter, hleave, entering, henter, hparts]
  simp [Rendering.descend, Rendering.nothing, Layout.concat]

end Renderer

/-- Code in a list loses the indentation that its lines have in common, no more and no less, and is
indented by four spaces instead. Without these four it is laid out the same again. -/
theorem Formatter.indented_code_rebased (formatter : Formatter) (source : Source) {place : Place}
    {element : Element} {lines : List Segment}
    (hbuiltIn : formatter.overrides.find? .codeBlock = none)
    (hcode : element.node = .codeBlock lines) (hlist : place.isInList = true) :
    let renderer := formatter.renderer source
    let code := Segment.join source lines
    let strip := Block.commonIndent code
    let entered := (renderer.entering place element).run Buffer.empty
    let left := (renderer.leaving place element).run Buffer.empty
    let walked := (renderer.walk place element).run Buffer.empty
    let shown : Bytes := code.lines.flatMap fun line =>
      if line.isBlankLine then [Bytes.newline]
      else List.replicate 4 Bytes.space ++ line.drop strip
    strip = (((code.splitOn Bytes.newline).filter (!Bytes.isBlankLine ·)).map
        Block.indentation).min?.getD 0 ∧
      (∀ line ∈ code.lines, line.isBlankLine = false →
        (line.take strip).length = strip ∧
          ∀ byte ∈ line.take strip, byte = Bytes.space ∨ byte = Bytes.tab) ∧
      ((∃ line ∈ code.lines, line.isBlankLine = false) →
        ∃ line ∈ code.lines, line.isBlankLine = false ∧
          Block.indentation (line.drop strip) = 0) ∧
      entered.result = .ok () ∧ Sink.contents entered.state = Bytes.newline :: shown ∧
      left.result = .ok () ∧ Sink.contents left.state = [] ∧
      (element.children = [] →
        walked.result = .ok () ∧ Sink.contents walked.state = Bytes.newline :: shown) ∧
      ∀ (again : Formatter) (other : Source) (site : Place) (twin : Element)
        (pieces : List Segment), again.overrides.find? .codeBlock = none →
        twin.node = .codeBlock pieces → site.isInList = true →
        Segment.join other pieces = (shown.lines.map (Block.unindented 4)).flatten →
        let rewritten := ((again.renderer other).entering site twin).run Buffer.empty
        rewritten.result = .ok () ∧ Sink.contents rewritten.state = Bytes.newline :: shown := by
  intro renderer code strip entered left walked shown
  have hshown : shown = (Block.indentedLines code).flatten :=
    (Block.indentedLines_flatten code).symm
  obtain ⟨henter, hleave⟩ := renderer.outcome_indented hbuiltIn hcode hlist
  obtain ⟨hleaveOk, hleft⟩ := Layout.run_eq_all_iff.mpr hleave
  have hwritten {layout : Layout} (houtcome : layout.outcome =
      .all (Bytes.newline :: (Block.indentedLines code).flatten)) :
      let written := layout.run Buffer.empty
      written.result = .ok () ∧ Sink.contents written.state = Bytes.newline :: shown := by
    rw [← hshown] at houtcome
    exact Layout.run_eq_all_iff.mpr houtcome
  obtain ⟨henterOk, hentered⟩ := hwritten henter
  refine ⟨Block.commonIndent_eq_splitOn code, ?_, ?_, henterOk, hentered, hleaveOk, hleft, ?_, ?_⟩
  · intro line hline hblank
    have hstrip := Block.commonIndent_le hline hblank
    refine ⟨Block.length_take_indentation hstrip, ?_⟩
    intro byte hbyte
    simpa [Block.isIndentation] using Block.isIndentation_of_mem_take hstrip hbyte
  · rintro ⟨line, hline, hblank⟩
    obtain ⟨least, hleast, hblank, hindent⟩ := Block.exists_indentation_eq hline hblank
    refine ⟨least, hleast, hblank, ?_⟩
    rw [Block.indentation_drop hindent.symm.le, hindent, Nat.sub_self]
  · intro hleaf
    exact hwritten ((renderer.outcome_walk_indented_leaf hbuiltIn hcode hlist hleaf).trans henter)
  · intro again other site twin pieces hagain htwin hsite hjoin
    obtain ⟨hrewritten, -⟩ := (again.renderer other).outcome_indented hagain htwin hsite
    have hpieces : (again.renderer other).context.join pieces = (Block.rebased code).flatten := by
      change Segment.join other pieces = _
      rw [hjoin, hshown]
      exact congrArg List.flatten (Block.unindented_indentedLines code)
    rw [hpieces, Block.indentedLines_rebased] at hrewritten
    exact hwritten hrewritten

/-- A tab beyond the common indentation, a line of white space, and no newline at the end. -/
def tabbedSource : Source := (Bytes.ofText "  \tx\r\n \x0c\n  y").toArray

def tabbedCode : Element := .mk 3 (.codeBlock [⟨0, 6⟩, ⟨6, 9⟩, ⟨9, 12⟩]) []

/-- What is shown of it, without the four spaces. -/
def flushSource : Source := (Bytes.ofText "\tx\r\n\ny").toArray

def flushCode : Element := .mk 3 (.codeBlock [⟨0, 6⟩]) []

theorem Formatter.tabbedCode_rebased :
    let place : Place := ⟨[.listItem, .list false 1, .document], [.paragraph], none⟩
    let shown := Bytes.ofText "\n    \tx\r\n\n    y"
    let formatter : Formatter := {}
    let entered := ((formatter.renderer tabbedSource).entering place tabbedCode).run Buffer.empty
    let rewritten := ((formatter.renderer flushSource).entering place flushCode).run Buffer.empty
    place.isInList = true ∧
      (∃ line ∈ Bytes.lines (Bytes.ofText "  \tx\r\n \x0c\n  y"), line.isBlankLine = false ∧
        Block.indentation (line.drop 2) = 0) ∧
      Sink.contents entered.state = shown ∧ Sink.contents rewritten.state = shown := by
  intro place shown entered rewritten
  have hlist : place.isInList = true := rfl
  have hnode : tabbedCode.node = .codeBlock [⟨0, 6⟩, ⟨6, 9⟩, ⟨9, 12⟩] := rfl
  have hflush : flushCode.node = .codeBlock [⟨0, 6⟩] := rfl
  have hcode : Segment.join tabbedSource [⟨0, 6⟩, ⟨6, 9⟩, ⟨9, 12⟩] =
      Bytes.ofText "  \tx\r\n \x0c\n  y" := by decide +kernel
  have hstrip : Block.commonIndent (Bytes.ofText "  \tx\r\n \x0c\n  y") = 2 := by decide +kernel
  obtain ⟨-, -, hleast, -, hentered, -, -, -, hagain⟩ :=
    Formatter.indented_code_rebased {} tabbedSource rfl hnode hlist
  obtain ⟨-, hrewritten⟩ := hagain {} flushSource place flushCode [⟨0, 6⟩] rfl hflush hlist
    (by decide +kernel)
  have hshown : Bytes.newline :: (Bytes.lines (Segment.join tabbedSource
      [⟨0, 6⟩, ⟨6, 9⟩, ⟨9, 12⟩])).flatMap (fun line => if line.isBlankLine then [Bytes.newline]
        else List.replicate 4 Bytes.space ++ line.drop (Block.commonIndent
          (Segment.join tabbedSource [⟨0, 6⟩, ⟨6, 9⟩, ⟨9, 12⟩]))) = shown := by decide +kernel
  rw [hshown] at hentered hrewritten
  rw [hcode, hstrip] at hleast
  simp only [entered, rewritten]
  exact ⟨hlist, hleast (by decide +kernel), hentered, hrewritten⟩

end Render

end CanonicalMarkdown
