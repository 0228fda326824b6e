import CanonicalMarkdown.Proofs.Render.Fence

namespace CanonicalMarkdown.Render

open Document Output

/-! Fences are chosen by the code as it was read, and what stands between them is what a formatter
made of it. -/

/-- A block of code is written as `between`, with the same number of backticks before and after
it. -/
structure Renderer.Fences (renderer : Renderer) (place : Place) (element : Element)
    (language : String) (count : Nat) (between : Bytes) : Prop where
  enters : ((renderer.entering place element).run Buffer.empty).result = .ok ()
  opening : Sink.contents ((renderer.entering place element).run Buffer.empty).state =
    List.replicate count Bytes.backtick ++ (Bytes.ofText language ++ Bytes.newline :: between)
  leaves : ((renderer.leaving place element).run Buffer.empty).result = .ok ()
  closing : Sink.contents ((renderer.leaving place element).run Buffer.empty).state =
    List.replicate count Bytes.backtick ++ [Bytes.newline, Bytes.newline]
  /-- Without children there is nothing else. -/
  whole : element.children = [] →
    let walked := (renderer.walk place element).run Buffer.empty
    walked.result = .ok () ∧
      Sink.contents walked.state =
        List.replicate count Bytes.backtick ++
          (Bytes.ofText language ++ Bytes.newline :: between) ++
          (List.replicate count Bytes.backtick ++ [Bytes.newline, Bytes.newline])

namespace Renderer

variable (renderer : Renderer) {place : Place} {element : Element} {language : String}
  {lines : List Segment}

theorem fences_written (hbuiltIn : renderer.overrides.find? element.kind = none)
    (hfenced : IsFenced place element.node language lines) :
    renderer.Fences place element language (Block.fenceLength (renderer.context.join lines))
      (renderer.context.written language lines) := by
  obtain ⟨hentering, hleaving⟩ := renderer.outcome_fenced_written hbuiltIn hfenced
  refine ⟨?_, ?_, ?_, ?_, ?_⟩
  · rw [Layout.run_eq, hentering]
    rfl
  · rw [Layout.contents_run, Layout.output, hentering]
    rfl
  · rw [Layout.run_eq, hleaving]
    rfl
  · rw [Layout.contents_run, Layout.output, hleaving]
    rfl
  · intro hleaf walked
    have hwalked := renderer.outcome_walk_fenced_leaf hbuiltIn hfenced hleaf
    rw [hentering, hleaving, Written.all_followedBy_all] at hwalked
    simp only [walked, Layout.run_eq, Buffer.contents_fed_empty, Layout.output, hwalked]
    exact ⟨rfl, rfl⟩

end Renderer

namespace Context

variable (context : Context)

theorem longestRun_written (language : String) (lines : List Segment) :
    (context.written language lines).longestRun Bytes.backtick =
      (context.formatted language (context.join lines)).longestRun Bytes.backtick := by
  rw [written, formatted]
  cases (context.join lines).toText? with
  | none => rfl
  | some text =>
      -- The newline that is added adds no backticks.
      exact longestRun_endedCode _

theorem written_of_not_text {lines : List Segment}
    (htext : (context.join lines).toText?.isSome = false) (language : String) :
    context.written language lines = context.join lines := by
  simp [written, htext]

theorem written_ends_iff (language : String) (lines : List Segment) :
    (context.written language lines = [] ∨ (context.written language lines).endsLine = true) ↔
      (context.join lines).toText?.isSome = true ∨ (context.join lines).endsLine = true := by
  cases htext : (context.join lines).toText?.isSome with
  | true => simpa [written, htext] using endedCode_ends _
  | false =>
      -- No bytes at all are text.
      have hne : context.join lines ≠ [] := by
        intro hempty
        rw [hempty] at htext
        cases htext
      simp [context.written_of_not_text htext, hne]

end Context

/-- The fences are longer than every run of backticks between them exactly if the formatter brings
in no run of more than two that the code does not have. -/
theorem Formatter.fence_covers_iff (formatter : Formatter) (source : Source) {place : Place}
    {element : Element} {language : String} {lines : List Segment}
    (hbuiltIn : formatter.overrides.find? element.kind = none)
    (hfenced : IsFenced place element.node language lines) :
    let renderer := formatter.renderer source
    let code := Segment.join source lines
    ∃ count between, renderer.Fences place element language count between ∧
      ((∀ length, List.replicate length Bytes.backtick <:+: between → length < count) ↔
        ∀ length > 2,
          List.replicate length Bytes.backtick <:+: renderer.context.formatted language code →
            List.replicate length Bytes.backtick <:+: code) := by
  intro renderer code
  refine ⟨_, _, renderer.fences_written hbuiltIn hfenced, ?_⟩
  have hcode : renderer.context.join lines = code := rfl
  simp only [Bytes.replicate_infix_iff, Context.longestRun_written, hcode, Block.fenceLength]
  constructor
  · intro hcovered length hlong hformatted
    have := hcovered length hformatted
    omega
  · intro hkept length hformatted
    -- Fences have three backticks at least, so shorter runs are covered whatever the code is.
    rcases Nat.lt_or_ge 2 length with hlong | hshort
    · have := hkept length hlong hformatted
      omega
    · omega

/-- A formatter that shows a fence whatever the code is. -/
def showsFence : CodeFormatter := fun _ _ => some "```"

/-- The code has a longer run of backticks than the fence it is replaced by. -/
theorem Formatter.shownFence_covered :
    ∃ count between,
      (({ formatCode := showsFence } : Formatter).renderer shownFenceSource).Fences Place.root
          shownFence "md" count between ∧
        ∀ length, List.replicate length Bytes.backtick <:+: between → length < count := by
  have hfenced : IsFenced Place.root shownFence.node "md" [⟨0, 5⟩, ⟨5, 8⟩] :=
    .fenced (some "md") [⟨0, 5⟩, ⟨5, 8⟩]
  obtain ⟨count, between, hfences, hcovered⟩ :=
    Formatter.fence_covers_iff { formatCode := showsFence } shownFenceSource rfl hfenced
  refine ⟨count, between, hfences, hcovered.mpr ?_⟩
  have hformatted : (({ formatCode := showsFence } : Formatter).renderer
      shownFenceSource).context.formatted "md" (Segment.join shownFenceSource [⟨0, 5⟩, ⟨5, 8⟩]) =
      Bytes.ofText "```" := by decide +kernel
  have hshown : (Bytes.ofText "```").longestRun Bytes.backtick = 3 := by decide +kernel
  have hcode : (Segment.join shownFenceSource [⟨0, 5⟩, ⟨5, 8⟩]).longestRun Bytes.backtick = 4 := by
    decide +kernel
  intro length _ hrun
  rw [hformatted, Bytes.replicate_infix_iff, hshown] at hrun
  rw [Bytes.replicate_infix_iff, hcode]
  omega

def lineOfCode : Element := .mk 1 (.fencedCodeBlock none [⟨0, 1⟩]) []

theorem lineOfCode_isFenced : IsFenced Place.root lineOfCode.node "" [⟨0, 1⟩] :=
  .fenced none [⟨0, 1⟩]

/-- So a formatter can end the block early. -/
theorem Formatter.lineOfCode_outgrows_fence :
    ¬∀ (formatter : Formatter) (source : Source) (place : Place) (element : Element)
      (language : String) (lines : List Segment),
      formatter.overrides.find? element.kind = none →
      IsFenced place element.node language lines →
      ∀ count between,
        (formatter.renderer source).Fences place element language count between →
        ∀ length, List.replicate length Bytes.backtick <:+: between → length < count := by
  intro hcovers
  have hfences := Renderer.fences_written
    (({ formatCode := showsFence } : Formatter).renderer #[120])
    rfl lineOfCode_isFenced
  have hlength : Block.fenceLength (Segment.join #[120] [⟨0, 1⟩]) = 3 := by decide +kernel
  have hwritten : (({ formatCode := showsFence } : Formatter).renderer #[120]).context.written ""
      [⟨0, 1⟩] = Bytes.ofText "```\n" := by decide +kernel
  rw [hwritten] at hfences
  have hshown : List.replicate 3 Bytes.backtick <:+: Bytes.ofText "```\n" :=
    ⟨[], [Bytes.newline], by decide +kernel⟩
  have hlonger := hcovers _ _ _ _ _ _ rfl lineOfCode_isFenced _ _ hfences 3 hshown
  exact absurd (hlonger.trans_eq hlength) (Nat.lt_irrefl 3)

/-- The closing fence stands on a line of its own exactly if the code is text or ends with a newline
itself. Code that is not text is written as it is. -/
theorem Formatter.closing_fence_alone_iff (formatter : Formatter) (source : Source) {place : Place}
    {element : Element} {language : String} {lines : List Segment}
    (hbuiltIn : formatter.overrides.find? element.kind = none)
    (hfenced : IsFenced place element.node language lines) :
    let renderer := formatter.renderer source
    let code := Segment.join source lines
    let written := (renderer.context.code language lines).run Buffer.empty
    let between := Sink.contents written.state
    written.result = .ok () ∧
      (∃ count, renderer.Fences place element language count between) ∧
      ((between = [] ∨ between.endsLine = true) ↔
        code.toText?.isSome = true ∨ code.endsLine = true) ∧
      (code.toText?.isSome = false → between = code) := by
  intro renderer code written between
  have hcode := renderer.context.outcome_code language lines
  have hbetween : between = renderer.context.written language lines := by
    simp only [between, written, Layout.contents_run, Layout.output, hcode]
    rfl
  have hfences := renderer.fences_written hbuiltIn hfenced
  rw [← hbetween] at hfences
  refine ⟨?_, ⟨_, hfences⟩, ?_, ?_⟩
  · simp only [written, Layout.run_eq, hcode]
    rfl
  · rw [hbetween]
    exact renderer.context.written_ends_iff language lines
  · intro htext
    rw [hbetween]
    exact renderer.context.written_of_not_text htext language

/-- A byte that no text has, at the end of a line. -/
def strayByte : Element := .mk 1 (.fencedCodeBlock none [⟨0, 2⟩]) []

theorem Formatter.strayByte_ends_line :
    let source : Source := #[255, 10]
    let written := ((({} : Formatter).renderer source).context.code "" [⟨0, 2⟩]).run Buffer.empty
    IsFenced Place.root strayByte.node "" [⟨0, 2⟩] ∧
      (Segment.join source [⟨0, 2⟩]).toText?.isSome = false ∧
      Sink.contents written.state = [255, 10] ∧
      (∃ count, (({} : Formatter).renderer source).Fences Place.root strayByte "" count [255, 10]) ∧
      Bytes.endsLine [255, 10] = true := by
  intro source written
  have hfenced : IsFenced Place.root strayByte.node "" [⟨0, 2⟩] := .fenced none [⟨0, 2⟩]
  have hstray : (Segment.join source [⟨0, 2⟩]).toText?.isSome = false := by decide +kernel
  have hcode : Segment.join source [⟨0, 2⟩] = [255, 10] := by decide +kernel
  obtain ⟨-, hfences, hends, hkept⟩ :=
    Formatter.closing_fence_alone_iff {} source rfl hfenced
  have hbetween : Sink.contents written.state = [255, 10] := (hkept hstray).trans hcode
  have hended := hends.mpr (.inr (by decide +kernel))
  rw [hbetween] at hfences hended
  exact ⟨hfenced, hstray, hbetween, hfences, hended.resolve_left (by simp)⟩

/-- So the closing fence can stand on the last line of the code. -/
theorem Formatter.lineOfCode_shares_line :
    ¬∀ (formatter : Formatter) (source : Source) (place : Place) (element : Element)
      (language : String) (lines : List Segment),
      formatter.overrides.find? element.kind = none →
      IsFenced place element.node language lines →
      ∀ count between,
        (formatter.renderer source).Fences place element language count between →
        between = [] ∨ between.endsLine = true := by
  intro hends
  have hfences := Renderer.fences_written (({} : Formatter).renderer #[255]) rfl lineOfCode_isFenced
  have hwritten : (({} : Formatter).renderer #[255]).context.written "" [⟨0, 1⟩] = [255] := by
    decide +kernel
  rw [hwritten] at hfences
  have hended := hends _ _ _ _ _ _ rfl lineOfCode_isFenced _ _ hfences
  exact absurd hended (by decide)

end CanonicalMarkdown.Render
