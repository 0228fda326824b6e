import CanonicalMarkdown.Proofs.Render.InlineContent

namespace CanonicalMarkdown.Render

open Document Output

/-! A heading and the line it stands on. -/

/-- The hash marks of a heading and the space after them. -/
def headingMark (level : Nat) : Bytes := List.replicate level 35 ++ [Bytes.space]

theorem Renderer.outcome_walk_heading (context : Context) (place : Place) {element : Element}
    {level : Nat} (hheading : element.node = .heading level) :
    ((standard context).walk place element).outcome =
      (Written.all (headingMark level)).followedBy
        (((standard context).content place element).outcome.followedBy
          (.all [Bytes.newline, Bytes.newline])) := by
  obtain ⟨id, node, children⟩ := element
  obtain rfl : node = .heading level := hheading
  have hwalk : (standard context).walk place (.mk id (.heading level) children) =
      .visit id .enter (.bytes (headingMark level) ++
        (standard context).content place (.mk id (.heading level) children) ++
        .visit id .leave .blankLine) := rfl
  rw [hwalk, Layout.outcome_visit, Layout.outcome_append, Layout.outcome_append,
    Layout.outcome_visit, Layout.outcome_bytes, Layout.blankLine, Layout.outcome_bytes,
    Written.followedBy_assoc]

/-- A heading of flat content is written on one line exactly when all of it can be shown and no node
that the walk comes to ends a line. -/
theorem Formatter.heading_on_one_line_iff (options : Options) (formatCode : CodeFormatter)
    (source : Source) (place : Place) {element : Element} {level : Nat}
    (hheading : element.node = .heading level)
    (hflat : ∀ inner ∈ element.descendants, inner.node.IsFlat source) :
    let formatter : Formatter := { options, formatCode }
    let renderer := formatter.renderer source
    let written := (renderer.walk place element).run Buffer.empty
    (∃ line, Bytes.newline ∉ line ∧ written.result = .ok () ∧
        Sink.contents written.state =
          headingMark level ++ line ++ [Bytes.newline, Bytes.newline]) ↔
      ∀ inner ∈ Element.visitedOf element.children, renderer.context.KeepsLine inner.node := by
  intro formatter renderer written
  have hcontent : (renderer.content place element).OneLine ↔
      ∀ inner ∈ Element.visitedOf element.children, renderer.context.KeepsLine inner.node := by
    have hplace : Renderer.Sheltered renderer.context
        ⟨element.node :: place.ancestors, [], none⟩ := by
      rw [hheading]
      exact .block rfl (by simp [Node.kind]) place.ancestors
    exact Renderer.oneLine_walkEach element.children hplace hflat
  have hline := Layout.oneLine_between_iff
    (Renderer.outcome_walk_heading renderer.context place hheading)
  rw [← hcontent]
  exact (exists_congr fun line => and_congr_right fun _ => Layout.run_eq_all_iff).trans hline

/-- The line that ends in the code is not shown. -/
def codeHeading : Element :=
  .mk 1 (.heading 2) [.mk 2 (.emphasis 1) [.mk 3 (.plainText ⟨0, 1⟩) []],
    .mk 4 .codeSpan [.mk 5 (.text ⟨1, 2⟩ false true false) []]]

theorem codeHeading_isFlat :
    ∀ inner ∈ codeHeading.descendants, inner.node.IsFlat #[97, 98] := by
  have hnodes : codeHeading.descendants.map Element.node = [.emphasis 1, .plainText ⟨0, 1⟩,
      .codeSpan, .text ⟨1, 2⟩ false true false] := rfl
  have hflat : ∀ node ∈ codeHeading.descendants.map Element.node, node.IsFlat #[97, 98] := by
    rw [hnodes]
    simp only [List.forall_mem_cons]
    refine ⟨⟨rfl, ?_⟩, ⟨rfl, ?_⟩, ⟨rfl, ?_⟩, ⟨rfl, ?_⟩, by simp⟩ <;> intro _ <;> decide +kernel
  exact List.forall_mem_map.mp hflat

theorem Formatter.codeHeading_on_one_line :
    let renderer := ({} : Formatter).renderer #[97, 98]
    let written := (renderer.walk Place.root codeHeading).run Buffer.empty
    codeHeading.node = .heading 2 ∧
      (∀ inner ∈ codeHeading.descendants, inner.node.IsFlat #[97, 98]) ∧
      Sink.contents written.state = Bytes.ofText "## *a*\x60b\x60\n\n" ∧
      ∃ line, Bytes.newline ∉ line ∧ written.result = .ok () ∧
        Sink.contents written.state = headingMark 2 ++ line ++ [Bytes.newline, Bytes.newline] := by
  intro renderer written
  have hkeeps : ∀ inner ∈ Element.visitedOf codeHeading.children,
      renderer.context.KeepsLine inner.node := by
    have hnodes : (Element.visitedOf codeHeading.children).map Element.node =
        [.emphasis 1, .plainText ⟨0, 1⟩, .codeSpan] := rfl
    rw [← List.forall_mem_map (P := Context.KeepsLine _), hnodes]
    simp only [List.forall_mem_cons]
    exact ⟨keepsLine_emphasis_iff.mpr rfl, keepsLine_text_iff.mpr rfl,
      keepsLine_of_kind _ (by decide), by simp⟩
  refine ⟨rfl, codeHeading_isFlat, by decide +kernel, ?_⟩
  exact (Formatter.heading_on_one_line_iff {} .none #[97, 98] Place.root rfl
    codeHeading_isFlat).mpr hkeeps

/-- Text that ends a line, and text after it. -/
def brokenHeading : Element :=
  .mk 1 (.heading 1) [.mk 2 (.text ⟨0, 1⟩ false true false) [], .mk 3 (.plainText ⟨1, 2⟩) []]

/-- So a heading can take two lines, of which the second is no heading. -/
theorem Formatter.brokenHeading_on_two_lines :
    ¬∀ (options : Options) (formatCode : CodeFormatter) (source : Source) (place : Place)
      (element : Element) (level : Nat), element.node = .heading level →
      (∀ inner ∈ element.descendants, inner.kind = .text ∧ inner.node.IsFlat source) →
      let formatter : Formatter := { options, formatCode }
      let written := ((formatter.renderer source).walk place element).run Buffer.empty
      ∃ line, Bytes.newline ∉ line ∧ written.result = .ok () ∧
        Sink.contents written.state =
          headingMark level ++ line ++ [Bytes.newline, Bytes.newline] := by
  intro hheadings
  have hflat : ∀ inner ∈ brokenHeading.descendants,
      inner.kind = .text ∧ inner.node.IsFlat #[97, 98] := by
    have hcontent : brokenHeading.descendants = brokenHeading.children := rfl
    rw [hcontent, brokenHeading, Element.children]
    simp only [List.forall_mem_cons]
    refine ⟨⟨rfl, rfl, ?_⟩, ⟨rfl, rfl, ?_⟩, by simp⟩ <;> intro _ <;> decide +kernel
  obtain ⟨line, hline, -, hcontents⟩ :=
    hheadings {} .none #[97, 98] Place.root brokenHeading 1 rfl hflat
  have hwritten : Sink.contents (((({} : Formatter).renderer #[97, 98]).walk Place.root
      brokenHeading).run Buffer.empty).state = Bytes.ofText "# a\nb\n\n" := by decide +kernel
  have hcount := congrArg (List.count Bytes.newline) (hwritten.symm.trans hcontents)
  rw [List.count_append, List.count_append, List.count_eq_zero.mpr hline] at hcount
  exact absurd hcount (by decide +kernel)

end CanonicalMarkdown.Render
