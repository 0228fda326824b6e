import CanonicalMarkdown.Proofs.Render.Overriding
import CanonicalMarkdown.Proofs.Text.Bytes
import Mathlib

namespace CanonicalMarkdown

open Document Output

namespace Render

/-! How a fenced block is read. -/

structure FencedText where
  language : Bytes
  content : Bytes
  /-- From the end of the closing line on. -/
  rest : Bytes
  deriving DecidableEq, Repr

namespace FencedText

/-- Up to three spaces, a long enough run of backticks, and nothing else but spaces and tabs. -/
def closes (count : Nat) (line : Bytes) : Bool :=
  let spaces := line.takeWhile (· == Bytes.space)
  let marks := line.drop spaces.length
  let run := marks.takeWhile (· == Bytes.backtick)
  decide (spaces.length ≤ 3) && decide (count ≤ run.length) &&
    (marks.drop run.length).all fun byte => byte == Bytes.space || byte == Bytes.tab

/-- The lines before the first that closes the block, and what follows the text of that one. -/
def readLines (count : Nat) : List Bytes → Option (Bytes × Bytes)
  | [] => none
  | line :: lines =>
      let text := line.takeWhile (· != Bytes.newline)
      if closes count text then some ([], line.drop text.length ++ lines.flatten)
      else (readLines count lines).map fun (content, rest) => (line ++ content, rest)

def read (data : Bytes) : Option FencedText :=
  let run := data.takeWhile (· == Bytes.backtick)
  let opened := data.drop run.length
  let language := opened.takeWhile (· != Bytes.newline)
  if run.length < 3 then none
  else
    (readLines run.length (Bytes.lines (opened.drop (language.length + 1)))).map
      fun (content, rest) => ⟨language, content, rest⟩

theorem takeWhile_ne_newline {text : Bytes} (htext : Bytes.newline ∉ text) (rest : Bytes) :
    (text ++ Bytes.newline :: rest).takeWhile (· != Bytes.newline) = text := by
  have hall : ∀ byte ∈ text, (byte != Bytes.newline) = true := by
    intro byte hbyte
    simpa using ne_of_mem_of_not_mem hbyte htext
  rw [List.takeWhile_append_of_pos hall, List.takeWhile_cons_of_neg (by simp), List.append_nil]

/-- A line of code whose runs are all shorter does not close the block. -/
theorem not_closes {count : Nat} {data line : Bytes}
    (hshorter : data.longestRun Bytes.backtick < count) (hline : line ∈ data.lines) :
    closes count (line.takeWhile (· != Bytes.newline)) = false := by
  let text := line.takeWhile (· != Bytes.newline)
  let marks := text.drop (text.takeWhile (· == Bytes.space)).length
  let run := marks.takeWhile (· == Bytes.backtick)
  have hpart : run <:+: data := by
    have hwithin : line <:+: data := by
      have hflatten := List.infix_of_mem_flatten hline
      rwa [Bytes.flatten_lines] at hflatten
    exact (List.takeWhile_prefix _).isInfix.trans <| (List.drop_suffix _ _).isInfix.trans <|
      (List.takeWhile_prefix _).isInfix.trans hwithin
  have hrun : run.length ≤ data.longestRun Bytes.backtick := by
    apply Bytes.length_le_longestRun hpart
    intro byte hbyte
    simpa using List.mem_takeWhile_imp hbyte
  have hfew : decide (count ≤ run.length) = false := by
    rw [decide_eq_false_iff_not]
    omega
  rw [closes]
  change (_ && decide (count ≤ run.length) && _) = false
  rw [hfew, Bool.and_false, Bool.false_and]

theorem readLines_append {count : Nat} {front : List Bytes}
    (hfront : ∀ line ∈ front, closes count (line.takeWhile (· != Bytes.newline)) = false)
    (back : List Bytes) :
    readLines count (front ++ back) =
      (readLines count back).map fun (content, rest) => (front.flatten ++ content, rest) := by
  induction front with
  | nil => simp
  | cons line front ih =>
      have hline := hfront line (by simp)
      have hrest := ih fun other hother => hfront other (by simp [hother])
      rw [List.cons_append, readLines]
      simp only [hline, Bool.false_eq_true, if_false, hrest, Option.map_map]
      congr 1
      funext pair
      simp

section

variable {fence : Bytes} (hfence : ∀ byte ∈ fence, byte = Bytes.backtick)
include hfence

theorem closes_fence : closes fence.length fence = true := by
  have hspaces : fence.takeWhile (· == Bytes.space) = [] := by
    cases fence with
    | nil => rfl
    | cons byte fence =>
        obtain rfl := hfence byte (by simp)
        exact List.takeWhile_cons_of_neg (by decide)
  have hrun : fence.takeWhile (· == Bytes.backtick) = fence := by
    rw [List.takeWhile_eq_self_iff]
    simpa using hfence
  simp [closes, hspaces, hrun]

theorem read_opening {language : Bytes} (hlength : 3 ≤ fence.length)
    (hbacktick : Bytes.backtick ∉ language) (hnewline : Bytes.newline ∉ language) (body : Bytes) :
    read (fence ++ (language ++ Bytes.newline :: body)) =
      (readLines fence.length body.lines).map fun (content, rest) => ⟨language, content, rest⟩ := by
  have hstops : (language ++ Bytes.newline :: body).takeWhile (· == Bytes.backtick) = [] := by
    cases language with
    | nil => rfl
    | cons byte language =>
        rw [List.mem_cons, not_or] at hbacktick
        rw [List.cons_append, List.takeWhile_cons_of_neg (by simpa using Ne.symm hbacktick.1)]
  have hrun : (fence ++ (language ++ Bytes.newline :: body)).takeWhile (· == Bytes.backtick) =
      fence := by
    rw [List.takeWhile_append_of_pos (by simpa using hfence), hstops, List.append_nil]
  have hbody : (language ++ Bytes.newline :: body).drop (language.length + 1) = body := by
    simp [List.drop_append]
  simp only [read, hrun, List.drop_left, takeWhile_ne_newline hnewline, hbody,
    if_neg (Nat.not_lt.mpr hlength)]

/-- Up to a fence longer than all runs in it the content is read as it is. -/
theorem readLines_closing {content : Bytes}
    (hended : content.isEmpty = true ∨ content.endsLine = true)
    (hshorter : content.longestRun Bytes.backtick < fence.length) (rest : Bytes) :
    readLines fence.length (Bytes.lines (content ++ (fence ++ Bytes.newline :: rest))) =
      some (content, Bytes.newline :: rest) := by
  have hmarks : Bytes.newline ∉ fence := fun hmem => absurd (hfence _ hmem) (by decide)
  have hclosing : readLines fence.length ((fence ++ [Bytes.newline]) :: Bytes.lines rest) =
      some ([], Bytes.newline :: rest) := by
    simp only [readLines, takeWhile_ne_newline hmarks, closes_fence hfence, if_true, List.drop_left,
      Bytes.flatten_lines]
    rfl
  rw [Bytes.lines_append hended, Bytes.lines_line hmarks,
    readLines_append fun line hline => not_closes hshorter hline, hclosing, Bytes.flatten_lines]
  simp

end

end FencedText

/-! What a block of code writes between its fences. -/

/-- The nodes that are written between fences where they stand, with their language and lines. -/
inductive IsFenced (place : Place) : Node → String → List Segment → Prop
  | fenced (language : Option String) (lines : List Segment) :
      IsFenced place (.fencedCodeBlock language lines) (language.getD "") lines
  | indented (hlist : place.isInList = false) (lines : List Segment) :
      IsFenced place (.codeBlock lines) "" lines

/-- Code with a newline at its end, unless it is empty. -/
def endedCode (code : Bytes) : Bytes :=
  if code ≠ [] ∧ code.endsLine = false then code ++ [Bytes.newline] else code

theorem endedCode_ends (code : Bytes) :
    (endedCode code).isEmpty = true ∨ (endedCode code).endsLine = true := by
  unfold endedCode
  split
  · right
    simp [Bytes.endsLine]
  · next hended =>
      rw [not_and_or, not_not, Bool.not_eq_false] at hended
      simpa using hended

theorem longestRun_endedCode (code : Bytes) :
    (endedCode code).longestRun Bytes.backtick = code.longestRun Bytes.backtick := by
  unfold endedCode
  split
  · exact Bytes.longestRun_concat (by decide) code
  · rfl

namespace Context

/-- The bytes that are written for a block of code. Only text is ended by a newline. -/
def written (context : Context) (language : String) (lines : List Segment) : Bytes :=
  let code := context.join lines
  if code.toText?.isSome then endedCode (context.formatted language code) else code

theorem outcome_code (context : Context) (language : String) (lines : List Segment) :
    (context.code language lines).outcome = .all (context.written language lines) := by
  rw [code, written]
  simp only [Layout.outcome_append, Layout.outcome_bytes]
  cases htext : (context.join lines).toText? with
  | none => simp [formatted, needsNewline, Layout.when, htext]
  | some text =>
      simp only [needsNewline, htext, Option.isSome_some, Bool.true_and, if_true, endedCode,
        Layout.when, Bool.and_eq_true, Bool.not_eq_true', List.isEmpty_eq_false_iff]
      split <;> simp

/-- A formatter that leaves everything alone. -/
theorem written_of_none {context : Context} (hpass : context.formatCode = CodeFormatter.none)
    {lines : List Segment} (htext : (context.join lines).toText?.isSome = true)
    (language : String) : context.written language lines = endedCode (context.join lines) := by
  have hkept : context.formatted language (context.join lines) = context.join lines := by
    rw [formatted, hpass]
    split <;> rfl
  simp only [written, htext, if_true, hkept]

end Context

namespace Renderer

variable (renderer : Renderer) {place : Place} {element : Element} {language : String}
  {lines : List Segment}

/-- What leaving an element does. -/
def leaving (place : Place) (element : Element) : Layout :=
  (renderer.render place element .leave (renderer.parts place element)).layout

variable (hbuiltIn : renderer.overrides.find? element.kind = none)
  (hfenced : IsFenced place element.node language lines)
include hbuiltIn hfenced

theorem render_fenced (parts : List Layout) :
    let fence := Block.fence (renderer.context.join lines)
    renderer.render place element .enter parts =
        .descend (.bytes fence ++ .text language ++ .newline ++
          renderer.context.code language lines) ∧
      renderer.render place element .leave parts = .descend (.bytes fence ++ .blankLine) := by
  obtain ⟨id, node, children⟩ := element
  rw [renderer.render_builtIn place hbuiltIn, renderer.render_builtIn place hbuiltIn]
  cases hfenced with
  | fenced language lines => exact ⟨rfl, rfl⟩
  | indented hlist lines =>
      simp only [render_standard, builtIn, Element.kind, Element.node, Node.kind, Block.codeBlock,
        hlist]
      exact ⟨rfl, rfl⟩

theorem outcome_fenced_written :
    let fence := Block.fence (renderer.context.join lines)
    (renderer.entering place element).outcome =
        .all (fence ++ (Bytes.ofText language ++
          Bytes.newline :: renderer.context.written language lines)) ∧
      (renderer.leaving place element).outcome =
        .all (fence ++ [Bytes.newline, Bytes.newline]) := by
  obtain ⟨henter, hleave⟩ := renderer.render_fenced hbuiltIn hfenced (renderer.parts place element)
  rw [entering, leaving, henter, hleave]
  refine ⟨?_, rfl⟩
  simp [Rendering.descend, Context.outcome_code]

theorem outcome_fenced (hpass : renderer.context.formatCode = CodeFormatter.none)
    (htext : (renderer.context.join lines).toText?.isSome = true) :
    let code := renderer.context.join lines
    (renderer.entering place element).outcome =
        .all (Block.fence code ++ (Bytes.ofText language ++ Bytes.newline :: endedCode code)) ∧
      (renderer.leaving place element).outcome =
        .all (Block.fence code ++ [Bytes.newline, Bytes.newline]) := by
  intro code
  have hwritten := renderer.outcome_fenced_written hbuiltIn hfenced
  rwa [Context.written_of_none hpass htext] at hwritten

/-- Without children there is nothing between entering a block and leaving it. -/
theorem outcome_walk_fenced_leaf (hleaf : element.children = []) :
    (renderer.walk place element).outcome =
      (renderer.entering place element).outcome.followedBy
        (renderer.leaving place element).outcome := by
  obtain ⟨henter, hleave⟩ := renderer.render_fenced hbuiltIn hfenced (renderer.parts place element)
  have hparts : renderer.parts place element = [] := by
    rw [parts, hleaf]
    rfl
  rw [walk_eq, around_of_descend place henter, entering, leaving, henter, hparts]
  simp [Rendering.descend, Layout.concat]

end Renderer

theorem Block.length_fence (code : Bytes) :
    3 ≤ (fence code).length ∧ code.longestRun Bytes.backtick < (fence code).length := by
  rw [fence, List.length_replicate, fenceLength]
  omega

/-- Code between fences is read back as it was, together with its language. -/
theorem Formatter.fenced_code_reads_back (formatter : Formatter)
    (hpass : formatter.formatCode = CodeFormatter.none) (source : Source) {place : Place}
    {element : Element} {language : String} {lines : List Segment}
    (hbuiltIn : formatter.overrides.find? element.kind = none)
    (hfenced : IsFenced place element.node language lines)
    (htext : (Segment.join source lines).toText?.isSome = true)
    (hbacktick : '\x60' ∉ language.toList) (hnewline : '\n' ∉ language.toList) :
    let renderer := formatter.renderer source
    let entered := (renderer.entering place element).run Buffer.empty
    let left := (renderer.leaving place element).run Buffer.empty
    let block := Sink.contents entered.state ++ Sink.contents left.state
    entered.result = .ok () ∧ left.result = .ok () ∧
      FencedText.read block =
        some ⟨Bytes.ofText language, endedCode (Segment.join source lines),
          [Bytes.newline, Bytes.newline]⟩ ∧
      (element.children = [] →
        let walked := (renderer.walk place element).run Buffer.empty
        walked.result = .ok () ∧ Sink.contents walked.state = block) := by
  intro renderer entered left block
  let code := Segment.join source lines
  obtain ⟨hentered, hleft⟩ := renderer.outcome_fenced hbuiltIn hfenced hpass htext
  have hblock : block = Block.fence code ++ (Bytes.ofText language ++ Bytes.newline ::
      (endedCode code ++ (Block.fence code ++ [Bytes.newline, Bytes.newline]))) := by
    simp only [block, entered, left, Layout.contents_run, Layout.output, hentered, hleft]
    simp [Written.all, code, renderer, Formatter.renderer, Context.join]
  have hfence : ∀ byte ∈ Block.fence code, byte = Bytes.backtick :=
    fun byte hbyte => List.eq_of_mem_replicate hbyte
  have hticks : Bytes.backtick ∉ Bytes.ofText language :=
    Bytes.not_mem_ofText (by decide) rfl hbacktick
  have hends : Bytes.newline ∉ Bytes.ofText language :=
    Bytes.not_mem_ofText (by decide) rfl hnewline
  obtain ⟨hlength, hlonger⟩ := Block.length_fence code
  rw [← longestRun_endedCode] at hlonger
  refine ⟨?_, ?_, ?_, ?_⟩
  · simp only [entered, Layout.run_eq, hentered]
    rfl
  · simp only [left, Layout.run_eq, hleft]
    rfl
  · rw [hblock, FencedText.read_opening hfence hlength hticks hends,
      FencedText.readLines_closing hfence (endedCode_ends code) hlonger]
    rfl
  · intro hleaf walked
    have hwalked := renderer.outcome_walk_fenced_leaf hbuiltIn hfenced hleaf
    simp only [walked, block, entered, left, Layout.run_eq, Buffer.contents_fed_empty,
      Layout.output, hwalked, hentered, hleft]
    exact ⟨rfl, rfl⟩

/-- Code that shows a fence of its own and lacks the last newline. -/
def shownFence : Element := .mk 1 (.fencedCodeBlock (some "md") [⟨0, 5⟩, ⟨5, 8⟩]) []

def shownFenceSource : Source := (Bytes.ofText "````\n```").toArray

theorem Formatter.shownFence_reads_back :
    Sink.contents (((({} : Formatter).renderer shownFenceSource).walk Place.root shownFence).run
        Buffer.empty).state = Bytes.ofText "`````md\n````\n```\n`````\n\n" ∧
      FencedText.read (Bytes.ofText "`````md\n````\n```\n`````\n\n") =
        some ⟨Bytes.ofText "md", Bytes.ofText "````\n```\n", Bytes.ofText "\n\n"⟩ := by
  have hfenced : IsFenced Place.root shownFence.node "md" [⟨0, 5⟩, ⟨5, 8⟩] :=
    .fenced (some "md") [⟨0, 5⟩, ⟨5, 8⟩]
  have htext : (Segment.join shownFenceSource [⟨0, 5⟩, ⟨5, 8⟩]).toText?.isSome = true := by
    decide +kernel
  have hended : endedCode (Segment.join shownFenceSource [⟨0, 5⟩, ⟨5, 8⟩]) =
      Bytes.ofText "````\n```\n" := by decide +kernel
  have hrest : [Bytes.newline, Bytes.newline] = Bytes.ofText "\n\n" := by decide +kernel
  have hwritten : Sink.contents (((({} : Formatter).renderer shownFenceSource).walk Place.root
      shownFence).run Buffer.empty).state = Bytes.ofText "`````md\n````\n```\n`````\n\n" := by
    decide +kernel
  obtain ⟨-, -, hread, hleaf⟩ := Formatter.fenced_code_reads_back {} rfl shownFenceSource rfl
    hfenced htext (by decide) (by decide)
  obtain ⟨-, hwalked⟩ := hleaf rfl
  rw [← hwalked, hwritten, hended, hrest] at hread
  exact ⟨hwritten, hread⟩

end Render

end CanonicalMarkdown
