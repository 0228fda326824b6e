import CanonicalMarkdown.Proofs.Render.Overriding
import CanonicalMarkdown.Proofs.Text.Bytes
import Mathlib

namespace CanonicalMarkdown

open Document Output

namespace Bytes

/-- A run of just this length: it could not be made longer on either side. -/
def HasMaximalRun (byte : UInt8) (count : Nat) (data : Bytes) : Prop :=
  ∃ before after, data = before ++ (List.replicate count byte ++ after) ∧
    before.getLast? ≠ some byte ∧ after.head? ≠ some byte

variable {byte : UInt8} {count : Nat} {data : Bytes}

theorem HasMaximalRun.mem (hrun : data.HasMaximalRun byte count) (hcount : 0 < count) :
    byte ∈ data := by
  obtain ⟨before, after, rfl, -, -⟩ := hrun
  simp [Nat.ne_of_gt hcount]

/-- Other bytes around the data neither make a run longer nor make a new one. -/
theorem hasMaximalRun_padded_iff {other : UInt8} (hother : other ≠ byte) (hcount : 0 < count) :
    HasMaximalRun byte count (other :: (data ++ [other])) ↔ data.HasMaximalRun byte count := by
  obtain ⟨count, rfl⟩ := Nat.exists_eq_add_one_of_ne_zero (Nat.ne_of_gt hcount)
  constructor
  · rintro ⟨before, after, hdata, hbefore, hafter⟩
    cases before with
    | nil => exact absurd (List.cons.inj hdata).1 hother
    | cons first before =>
        rw [List.cons_append, List.cons.injEq] at hdata
        obtain ⟨rfl, hrest⟩ := hdata
        rcases List.eq_nil_or_concat after with rfl | ⟨after, last, rfl⟩
        · have hlast := congrArg List.getLast? hrest
          rw [List.append_nil, List.replicate_succ', ← List.append_assoc] at hlast
          simp [hother] at hlast
        · rw [List.concat_eq_append, ← List.append_assoc, ← List.append_assoc] at hrest
          obtain ⟨rfl, -⟩ := List.append_inj' hrest rfl
          refine ⟨before, after, List.append_assoc _ _ _, ?_, ?_⟩
          · cases before with
            | nil => simp
            | cons next before => simpa using hbefore
          · cases after with
            | nil => simp
            | cons next after => simpa using hafter
  · rintro ⟨before, after, rfl, hbefore, hafter⟩
    refine ⟨other :: before, after ++ [other], by simp, ?_, ?_⟩
    · cases before with
      | nil => simpa using hother
      | cons next before => simpa using hbefore
    · cases after with
      | nil => simpa using hother
      | cons next after => simpa using hafter

end Bytes

namespace Render

/-! How a code span is read. -/

structure CodeText where
  content : Bytes
  rest : Bytes
  deriving DecidableEq, Repr

namespace CodeText

/-- The maximal runs of backticks and what stands between them. -/
def pieces (data : Bytes) : List Bytes :=
  data.splitBy fun first second => (first == Bytes.backtick) == (second == Bytes.backtick)

/-- A space at both ends is dropped, unless there is nothing but spaces. -/
def unpadded (text : Bytes) : Bytes :=
  if text.head? = some Bytes.space ∧ text.getLast? = some Bytes.space ∧
      ∃ byte ∈ text, byte ≠ Bytes.space then
    text.tail.dropLast
  else
    text

/-- A run of backticks, all up to the next run that is just as long, and what follows that. -/
def read (data : Bytes) : Option CodeText :=
  match pieces data with
  | [] => none
  | run :: pieces =>
      if run.head? = some Bytes.backtick then
        match pieces.dropWhile (· != run) with
        | [] => none
        | _ :: rest => some ⟨unpadded (pieces.takeWhile (· != run)).flatten, rest.flatten⟩
      else
        none

theorem flatten_pieces (data : Bytes) : (pieces data).flatten = data := List.flatten_splitBy _ data

/-- What stands before a run and does not end with a backtick has pieces of its own. -/
theorem pieces_append_run {before : Bytes} (hbefore : before.getLast? ≠ some Bytes.backtick)
    (count : Nat) (after : Bytes) :
    pieces (before ++ (List.replicate (count + 1) Bytes.backtick ++ after)) =
      pieces before ++ pieces (List.replicate (count + 1) Bytes.backtick ++ after) := by
  rw [List.replicate_succ, List.cons_append]
  apply List.splitBy_append_cons
  intro last hlast
  have hne : last ≠ Bytes.backtick := by
    rintro rfl
    exact hbefore hlast
  simp [hne]

/-- What stands after a run and does not begin with a backtick has pieces of its own. -/
theorem pieces_run_append {after : Bytes} (hafter : after.head? ≠ some Bytes.backtick)
    (count : Nat) :
    pieces (List.replicate (count + 1) Bytes.backtick ++ after) =
      List.replicate (count + 1) Bytes.backtick :: pieces after := by
  have hrun : pieces (List.replicate (count + 1) Bytes.backtick) =
      [List.replicate (count + 1) Bytes.backtick] := by
    apply List.splitBy_of_isChain (by simp)
    exact List.isChain_replicate_of_rel _ (by simp)
  have hsplit : pieces (List.replicate (count + 1) Bytes.backtick ++ after) =
      pieces (List.replicate (count + 1) Bytes.backtick) ++ pieces after := by
    apply List.splitBy_append
    intro last hlast next hnext
    obtain rfl := List.eq_of_mem_replicate (List.mem_of_mem_getLast? hlast)
    have hne : next ≠ Bytes.backtick := by
      rintro rfl
      exact hafter hnext
    simp [hne]
  rw [hsplit, hrun]
  rfl

theorem replicate_mem_pieces_iff {count : Nat} {data : Bytes} :
    List.replicate (count + 1) Bytes.backtick ∈ pieces data ↔
      data.HasMaximalRun Bytes.backtick (count + 1) := by
  constructor
  · intro hmem
    obtain ⟨left, right, hpieces⟩ := List.append_of_mem hmem
    have hchain := List.isChain_getLast_head_splitBy (fun first second =>
      (first == Bytes.backtick) == (second == Bytes.backtick)) data
    change (pieces data).IsChain _ at hchain
    -- Pieces that are neighbours are apart, so no backtick stands next to the run.
    rw [hpieces, List.isChain_append, List.isChain_cons] at hchain
    obtain ⟨-, ⟨hright, -⟩, hleft⟩ := hchain
    refine ⟨left.flatten, right.flatten, ?_, ?_, ?_⟩
    · rw [← flatten_pieces data, hpieces, List.flatten_append, List.flatten_cons]
    · rcases List.eq_nil_or_concat left with rfl | ⟨others, piece, rfl⟩
      · simp
      · obtain ⟨hpiece, _, hapart⟩ := hleft piece (by simp) _ rfl
        rw [List.concat_eq_append, List.flatten_append, List.flatten_singleton,
          List.getLast?_append_of_ne_nil _ hpiece, List.getLast?_eq_some_getLast hpiece]
        intro hlast
        simp [Option.some.inj hlast] at hapart
    · cases right with
      | nil => simp
      | cons piece others =>
          obtain ⟨_, hpiece, hapart⟩ := hright piece rfl
          rw [List.flatten_cons, List.head?_append_of_ne_nil _ hpiece,
            List.head?_eq_some_head hpiece]
          intro hfirst
          simp [Option.some.inj hfirst] at hapart
  · rintro ⟨before, after, rfl, hbefore, hafter⟩
    rw [pieces_append_run hbefore, pieces_run_append hafter]
    simp

section

variable {text delimiter : Bytes} {count : Nat} (htext : text ≠ [])
  (hfirst : text.head? ≠ some Bytes.backtick) (hlast : text.getLast? ≠ some Bytes.backtick)
  (hdelimiter : delimiter = List.replicate (count + 1) Bytes.backtick)
include htext hfirst hlast hdelimiter

/-- Delimiters around a text that begins and ends with something else stay apart from it. -/
theorem pieces_enclosed :
    pieces (delimiter ++ (text ++ delimiter)) = delimiter :: (pieces text ++ [delimiter]) := by
  have hclosing : pieces (text ++ delimiter) = pieces text ++ [delimiter] := by
    have happend := pieces_append_run hlast count []
    rwa [pieces_run_append (by simp), List.append_nil, ← hdelimiter] at happend
  have hopening : (text ++ delimiter).head? ≠ some Bytes.backtick := by
    rwa [List.head?_append_of_ne_nil _ htext]
  have happend := pieces_run_append hopening count
  rwa [hclosing, ← hdelimiter] at happend

/-- Between its delimiters a text is read whole exactly if it has no run of their length. -/
theorem read_enclosed_iff (content : Bytes) :
    read (delimiter ++ (text ++ delimiter)) = some ⟨content, []⟩ ↔
      ¬text.HasMaximalRun Bytes.backtick (count + 1) ∧ unpadded text = content := by
  have hmarked : delimiter.head? = some Bytes.backtick := by
    rw [hdelimiter]
    rfl
  have hne : delimiter ≠ [] := by
    rintro rfl
    cases hmarked
  rw [read, pieces_enclosed htext hfirst hlast hdelimiter, ← replicate_mem_pieces_iff,
    ← hdelimiter]
  simp only [hmarked, if_true]
  by_cases hmem : delimiter ∈ pieces text
  · -- The first such run inside ends the span, and at least the closing delimiter is left over.
    obtain ⟨left, right, hpieces, hleft⟩ := List.eq_append_cons_of_mem hmem
    have hpassed : ∀ piece ∈ left, (piece != delimiter) = true := by
      intro piece hpiece
      simpa using ne_of_mem_of_not_mem hpiece hleft
    rw [hpieces, List.append_assoc, List.dropWhile_append_of_pos hpassed, List.cons_append,
      List.dropWhile_cons_of_neg (by simp)]
    simp [hne]
  · have hpassed : ∀ piece ∈ pieces text, (piece != delimiter) = true := by
      intro piece hpiece
      simpa using ne_of_mem_of_not_mem hpiece hmem
    rw [List.dropWhile_append_of_pos hpassed, List.dropWhile_cons_of_neg (by simp),
      List.takeWhile_append_of_pos hpassed, List.takeWhile_cons_of_neg (by simp), List.append_nil,
      flatten_pieces]
    simp [hmem]

end

theorem unpadded_eq_self_iff {text : Bytes} :
    unpadded text = text ↔
      ¬(text.head? = some Bytes.space ∧ text.getLast? = some Bytes.space ∧
        ∃ byte ∈ text, byte ≠ Bytes.space) := by
  unfold unpadded
  split
  · next hpadded =>
      refine ⟨fun hkept => ?_, fun hnot => absurd hpadded hnot⟩
      have hne : text ≠ [] := by
        rintro rfl
        simp at hpadded
      have hshorter := congrArg List.length hkept
      rw [List.length_dropLast, List.length_tail] at hshorter
      have := List.length_pos_of_ne_nil hne
      omega
  · next hplain => exact iff_of_true rfl hplain

theorem unpadded_padded {text : Bytes} (htext : ∃ byte ∈ text, byte ≠ Bytes.space) :
    unpadded (Bytes.space :: (text ++ [Bytes.space])) = text := by
  obtain ⟨byte, hmem, hbyte⟩ := htext
  have hend : (Bytes.space :: (text ++ [Bytes.space])).getLast? = some Bytes.space := by
    rw [← List.cons_append, List.getLast?_concat]
  rw [unpadded, if_pos ⟨rfl, hend, byte, by simp [hmem], hbyte⟩, List.tail_cons,
    List.dropLast_concat]

end CodeText

/-! How it is written. -/

namespace Inline

/-- What stands between the delimiters. -/
def paddedCode (content : Bytes) : Bytes := codePadding content ++ content ++ codePadding content

theorem codePadding_eq (content : Bytes) :
    (codePadding content = [Bytes.space] ∧
        (content.head? = some Bytes.backtick ∨ content.getLast? = some Bytes.backtick)) ∨
      (codePadding content = [] ∧
        content.head? ≠ some Bytes.backtick ∧ content.getLast? ≠ some Bytes.backtick) := by
  unfold codePadding
  split
  · next hedge => exact .inl ⟨rfl, hedge⟩
  · next hplain => exact .inr ⟨rfl, not_or.mp hplain⟩

section

variable {content : Bytes}

/-- Padding keeps the backticks of the code apart from the delimiters. -/
theorem paddedCode_edges (hcontent : content ≠ []) :
    paddedCode content ≠ [] ∧ (paddedCode content).head? ≠ some Bytes.backtick ∧
      (paddedCode content).getLast? ≠ some Bytes.backtick := by
  rcases codePadding_eq content with ⟨hpadding, -⟩ | ⟨hpadding, hfirst, hlast⟩
  · rw [paddedCode, hpadding, List.getLast?_concat]
    exact ⟨by simp, by simp [Bytes.space, Bytes.backtick], by decide⟩
  · rw [paddedCode, hpadding, List.nil_append, List.append_nil]
    exact ⟨hcontent, hfirst, hlast⟩

theorem codeDelimiter_of_mem (hmem : Bytes.backtick ∈ content) :
    codeDelimiter content = List.replicate 2 Bytes.backtick := by
  simp [codeDelimiter, hmem]

theorem codeDelimiter_of_not_mem (hmem : Bytes.backtick ∉ content) :
    codeDelimiter content = List.replicate 1 Bytes.backtick := by
  simp [codeDelimiter, hmem]

/-- Code is read back unless a run of two backticks ends it early, or spaces of its own are taken
for padding. -/
theorem read_code_iff (hcontent : content ≠ []) :
    CodeText.read (codeDelimiter content ++ (paddedCode content ++ codeDelimiter content)) =
        some ⟨content, []⟩ ↔
      ¬content.HasMaximalRun Bytes.backtick 2 ∧
        ¬(content.head? = some Bytes.space ∧ content.getLast? = some Bytes.space ∧
          ∃ byte ∈ content, byte ≠ Bytes.space) := by
  obtain ⟨hne, hfirst, hlast⟩ := paddedCode_edges hcontent
  have hapart : Bytes.backtick ≠ Bytes.space := by decide
  by_cases hmem : Bytes.backtick ∈ content
  · -- Two backticks delimit it, so only a run of two matters; the padding is not part of any run.
    rw [CodeText.read_enclosed_iff hne hfirst hlast (codeDelimiter_of_mem hmem)]
    rcases codePadding_eq content with ⟨hpadding, hedge⟩ | ⟨hpadding, -, -⟩
    · have hpadded : paddedCode content = Bytes.space :: (content ++ [Bytes.space]) := by
        simp [paddedCode, hpadding]
      have hedges : ¬(content.head? = some Bytes.space ∧ content.getLast? = some Bytes.space ∧
          ∃ byte ∈ content, byte ≠ Bytes.space) := by
        rintro ⟨hhead, hend, -⟩
        rcases hedge with hedge | hedge
        · exact hapart (Option.some.inj (hedge.symm.trans hhead))
        · exact hapart (Option.some.inj (hedge.symm.trans hend))
      rw [hpadded, Bytes.hasMaximalRun_padded_iff hapart.symm (by decide),
        CodeText.unpadded_padded ⟨_, hmem, hapart⟩]
      exact and_congr_right fun _ => iff_of_true rfl hedges
    · have hplain : paddedCode content = content := by simp [paddedCode, hpadding]
      rw [hplain, CodeText.unpadded_eq_self_iff]
  · have hruns : ∀ count, ¬content.HasMaximalRun Bytes.backtick (count + 1) :=
      fun count hrun => hmem (hrun.mem (Nat.succ_pos count))
    have hplain : paddedCode content = content := by
      rcases codePadding_eq content with ⟨-, hedge⟩ | ⟨hpadding, -, -⟩
      · rcases hedge with hedge | hedge
        · exact absurd (List.mem_of_mem_head? hedge) hmem
        · exact absurd (List.mem_of_mem_getLast? hedge) hmem
      · simp [paddedCode, hpadding]
    rw [CodeText.read_enclosed_iff hne hfirst hlast (codeDelimiter_of_not_mem hmem), hplain,
      CodeText.unpadded_eq_self_iff]
    exact and_congr_left fun _ => iff_of_true (hruns 0) (hruns 1)

end

end Inline

namespace Renderer

theorem outcome_walk_codeSpan (renderer : Renderer) (place : Place) {element child : Element}
    (hbuiltIn : renderer.overrides.find? .codeSpan = none) (hspan : element.node = .codeSpan)
    (hchildren : element.children = [child]) :
    let content := Inline.literal renderer.context.source child.node
    (renderer.walk place element).outcome =
      .all (Inline.codeDelimiter content ++
        (Inline.paddedCode content ++ Inline.codeDelimiter content)) := by
  intro content
  obtain ⟨id, node, children⟩ := element
  obtain rfl : node = .codeSpan := hspan
  obtain rfl : children = [child] := hchildren
  let element : Element := .mk id .codeSpan [child]
  have hkind : renderer.overrides.find? element.kind = none := hbuiltIn
  have henter : ∀ parts, renderer.render place element .enter parts =
      .skipChildren (.bytes (Inline.codeDelimiter content ++ Inline.codePadding content) ++
        .concat [.bytes content]) := fun parts => renderer.render_builtIn place hkind .enter parts
  have hleave : ∀ parts, renderer.render place element .leave parts =
      .descend (.bytes (Inline.codePadding content ++ Inline.codeDelimiter content)) :=
    fun parts => renderer.render_builtIn place hkind .leave parts
  rw [walk_eq, around_of_skipChildren place (henter _), hleave]
  simp [Rendering.descend, Layout.concat, Inline.paddedCode]

end Renderer

/-- Code in a span is read back, with nothing left over, exactly if it has no maximal run of two
backticks and does not begin and end with a space beside something else. -/
theorem Formatter.code_span_reads_back_iff (formatter : Formatter) (source : Source) (place : Place)
    {element child : Element} {code : String}
    (hbuiltIn : formatter.overrides.find? .codeSpan = none) (hspan : element.node = .codeSpan)
    (hchildren : element.children = [child]) (hcode : child.node = .string code)
    (hne : code ≠ "") :
    let content := Bytes.ofText code
    let walked := ((formatter.renderer source).walk place element).run Buffer.empty
    walked.result = .ok () ∧
      (CodeText.read (Sink.contents walked.state) = some ⟨content, []⟩ ↔
        ¬content.HasMaximalRun Bytes.backtick 2 ∧
          ¬(content.head? = some Bytes.space ∧ content.getLast? = some Bytes.space ∧
            ∃ byte ∈ content, byte ≠ Bytes.space)) := by
  intro content walked
  have hwritten := (formatter.renderer source).outcome_walk_codeSpan place hbuiltIn hspan hchildren
  have hliteral : Inline.literal (formatter.renderer source).context.source child.node =
      content := by
    rw [hcode]
    rfl
  rw [hliteral] at hwritten
  have hcontent : content ≠ [] := fun hempty => hne (Bytes.ofText_eq_nil_iff.mp hempty)
  simp only [walked, Layout.run_eq, Buffer.contents_fed_empty, Layout.output, hwritten]
  exact ⟨rfl, Inline.read_code_iff hcontent⟩

/-- Code that begins with a longer run of backticks, and ends with a space. -/
def backtickedCode : Element := .mk 1 .codeSpan [.mk 2 (.string "```a` ") []]

theorem Formatter.backtickedCode_reads_back :
    let written := Bytes.ofText "`` ```a`  ``"
    Sink.contents (((({} : Formatter).renderer #[]).walk Place.root backtickedCode).run
        Buffer.empty).state = written ∧
      CodeText.read written = some ⟨Bytes.ofText "```a` ", []⟩ := by
  intro written
  have hwritten : Sink.contents (((({} : Formatter).renderer #[]).walk Place.root
      backtickedCode).run Buffer.empty).state = written := by decide +kernel
  have hspan : backtickedCode.node = .codeSpan := rfl
  obtain ⟨-, hread⟩ := Formatter.code_span_reads_back_iff {} #[] Place.root rfl hspan rfl rfl
    (by decide)
  rw [hwritten] at hread
  refine ⟨hwritten, hread.mpr ⟨?_, ?_⟩⟩
  · rw [← CodeText.replicate_mem_pieces_iff]
    decide +kernel
  · rintro ⟨hfirst, -, -⟩
    exact absurd hfirst (by decide +kernel)

end Render

end CanonicalMarkdown
