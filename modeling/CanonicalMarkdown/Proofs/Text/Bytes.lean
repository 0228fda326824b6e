import CanonicalMarkdown.Proofs.Output.Layer
import Mathlib

namespace CanonicalMarkdown

namespace Bytes

/-! Lines make up the bytes. -/

theorem flatten_lines (data : Bytes) : data.lines.flatten = data := by
  induction data with
  | nil => rfl
  | cons byte rest ih =>
      rw [lines]
      split
      · rw [List.flatten_cons, ih]
        rfl
      · split
        · next hrest =>
            rw [lines_eq_nil hrest]
            rfl
        · next line others hrest =>
            rw [hrest] at ih
            rw [List.flatten_cons, List.cons_append, ← List.flatten_cons, ih]

theorem lines_line {text : Bytes} (htext : newline ∉ text) (rest : Bytes) :
    (text ++ newline :: rest).lines = (text ++ [newline]) :: rest.lines := by
  induction text with
  | nil => rfl
  | cons byte text ih =>
      rw [List.mem_cons, not_or] at htext
      rw [List.cons_append, lines, if_neg (Ne.symm htext.1), ih htext.2]
      rfl

theorem lines_append {first : Bytes} (hfirst : first.isEmpty = true ∨ first.endsLine = true)
    (second : Bytes) : (first ++ second).lines = first.lines ++ second.lines := by
  induction first with
  | nil => rfl
  | cons byte rest ih =>
      have hended : endsLine (byte :: rest) = true := by simpa using hfirst
      by_cases hrest : rest = []
      · subst hrest
        obtain rfl : byte = newline := by simpa [endsLine] using hended
        rfl
      · rw [endsLine_cons hrest] at hended
        rw [List.cons_append, lines, lines, ih (.inr hended)]
        split
        · rfl
        · cases hlines : lines rest with
          | nil => exact absurd (lines_eq_nil hlines) hrest
          | cons line others => rfl

/-! A text is made of complete lines and a rest without a newline. -/

@[elab_as_elim]
theorem line_induction {motive : Bytes → Prop}
    (rest : ∀ text, newline ∉ text → motive text)
    (line : ∀ text data, newline ∉ text → motive data → motive (text ++ newline :: data))
    (data : Bytes) : motive data := by
  induction hlength : data.length using Nat.strong_induction_on generalizing data with
  | _ length ih =>
      by_cases hnewline : newline ∈ data
      · obtain ⟨text, tail, rfl, htext⟩ := List.eq_append_cons_of_mem hnewline
        refine line text tail htext (ih tail.length ?_ tail rfl)
        rw [← hlength, List.length_append, List.length_cons]
        omega
      · exact rest data hnewline

theorem lines_rest {text : Bytes} (htext : newline ∉ text) (hnonempty : text ≠ []) :
    text.lines = [text] := by
  induction text with
  | nil => exact absurd rfl hnonempty
  | cons byte text ih =>
      rw [List.mem_cons, not_or] at htext
      rw [lines, if_neg (Ne.symm htext.1)]
      cases text with
      | nil => rfl
      | cons next text => rw [ih htext.2 (List.cons_ne_nil next text)]

theorem isBlankLine_append (first second : Bytes) :
    isBlankLine (first ++ second) = (first.isBlankLine && second.isBlankLine) :=
  List.all_append

/-! The longest run. -/

section

variable {byte : UInt8}

theorem le_longestRunFrom (byte : UInt8) (current : Nat) (data : Bytes) :
    current ≤ longestRunFrom byte current data := by
  induction data generalizing current with
  | nil => exact Nat.le_refl current
  | cons next rest ih =>
      rw [longestRunFrom]
      split
      · exact Nat.le_of_succ_le (ih (current + 1))
      · exact Nat.le_max_left _ _

theorem add_le_longestRunFrom {run : Bytes} (hrun : ∀ next ∈ run, next = byte) (current : Nat)
    (after : Bytes) : current + run.length ≤ longestRunFrom byte current (run ++ after) := by
  induction run generalizing current with
  | nil => exact le_longestRunFrom byte current after
  | cons next run ih =>
      have hrest := ih (fun other hother => hrun other (by simp [hother])) (current + 1)
      rw [List.cons_append, longestRunFrom, if_pos (hrun next (by simp)), List.length_cons]
      omega

theorem length_le_longestRun {run data : Bytes} (hpart : run <:+: data)
    (hrun : ∀ next ∈ run, next = byte) : run.length ≤ data.longestRun byte := by
  obtain ⟨before, after, rfl⟩ := hpart
  suffices hfrom : ∀ current,
      run.length ≤ longestRunFrom byte current (before ++ (run ++ after)) by
    rw [List.append_assoc]
    exact hfrom 0
  induction before with
  | nil =>
      intro current
      have hreach := add_le_longestRunFrom hrun current after
      rw [List.nil_append]
      omega
  | cons next before ih =>
      intro current
      rw [List.cons_append, longestRunFrom]
      split
      · exact ih (current + 1)
      · exact Nat.le_trans (ih 0) (Nat.le_max_right _ _)

theorem isInfix_replicate_longestRunFrom (byte : UInt8) (current : Nat) (data : Bytes) :
    List.replicate (longestRunFrom byte current data) byte <:+:
      List.replicate current byte ++ data := by
  induction data generalizing current with
  | nil => exact (List.prefix_append _ _).isInfix
  | cons next rest ih =>
      rw [longestRunFrom]
      split
      · next hnext =>
          subst hnext
          have hrest := ih (current + 1)
          rwa [List.replicate_succ', List.append_assoc] at hrest
      · rcases Nat.le_total (longestRunFrom byte 0 rest) current with hle | hle
        · rw [Nat.max_eq_left hle]
          exact (List.prefix_append _ _).isInfix
        · rw [Nat.max_eq_right hle]
          have hsuffix : rest <:+ List.replicate current byte ++ next :: rest :=
            (List.suffix_cons next rest).trans (List.suffix_append _ _)
          exact (ih 0).trans hsuffix.isInfix

/-- The longest run is a run, and all runs up to its length are in it. -/
theorem replicate_infix_iff {count : Nat} {data : Bytes} :
    List.replicate count byte <:+: data ↔ count ≤ data.longestRun byte := by
  constructor
  · intro hpart
    have hrun := length_le_longestRun hpart fun next hnext => List.eq_of_mem_replicate hnext
    rwa [List.length_replicate] at hrun
  · intro hcount
    have hwithin : List.replicate count byte <+: List.replicate (data.longestRun byte) byte := by
      rw [← Nat.add_sub_cancel' hcount, List.replicate_add]
      exact List.prefix_append _ _
    exact hwithin.isInfix.trans (isInfix_replicate_longestRunFrom byte 0 data)

theorem longestRun_concat {other : UInt8} (hother : other ≠ byte) (data : Bytes) :
    (data ++ [other]).longestRun byte = data.longestRun byte := by
  suffices hfrom : ∀ current,
      longestRunFrom byte current (data ++ [other]) = longestRunFrom byte current data from
    hfrom 0
  induction data with
  | nil =>
      intro current
      simp [longestRunFrom, hother]
  | cons next rest ih =>
      intro current
      rw [List.cons_append, longestRunFrom, longestRunFrom]
      split
      · exact ih (current + 1)
      · rw [ih 0]

end

/-! Texts as bytes. -/

theorem ofText_append (first second : String) :
    ofText (first ++ second) = ofText first ++ ofText second := by
  simp [ofText, String.toUTF8_eq_toByteArray, String.toByteArray_append]

theorem ofText_inj {first second : String} : ofText first = ofText second ↔ first = second := by
  refine ⟨fun hbytes => ?_, congrArg ofText⟩
  rw [ofText, ofText, Array.toList_inj] at hbytes
  exact String.toByteArray_inj.mp (ByteArray.ext hbytes)

theorem ofText_eq_nil_iff {text : String} : ofText text = [] ↔ text = "" := by
  have hempty : ofText "" = [] := rfl
  rw [← hempty, ofText_inj]

/-- A byte of an encoded text that is below 128 is a character of the text. -/
theorem exists_char_of_mem_ofText {text : String} {byte : UInt8} (hbyte : byte.toNat < 128)
    (hmem : byte ∈ ofText text) : ∃ c ∈ text.toList, c.toNat = byte.toNat := by
  have hbytes : ofText text = text.toList.flatMap String.utf8EncodeChar := by
    conv_lhs => rw [← String.ofList_toList (s := text)]
    rw [ofText, String.toUTF8_eq_toByteArray, String.toByteArray_ofList, List.utf8Encode,
      List.data_toByteArray]
  rw [hbytes, List.mem_flatMap] at hmem
  obtain ⟨c, hc, hencoded⟩ := hmem
  refine ⟨c, hc, ?_⟩
  have hvalue : c.toNat = c.val.toNat := rfl
  simp only [String.utf8EncodeChar] at hencoded
  split at hencoded
  · simp only [List.mem_singleton] at hencoded
    rw [hencoded, UInt8.toNat_ofNat']
    omega
  · -- Every byte of a longer encoding has its highest bit set.
    split at hencoded
    · simp only [List.mem_cons, List.not_mem_nil, or_false] at hencoded
      rcases hencoded with rfl | rfl <;> rw [UInt8.toNat_ofNat'] at hbyte <;> omega
    · split at hencoded
      · simp only [List.mem_cons, List.not_mem_nil, or_false] at hencoded
        rcases hencoded with rfl | rfl | rfl <;> rw [UInt8.toNat_ofNat'] at hbyte <;> omega
      · simp only [List.mem_cons, List.not_mem_nil, or_false] at hencoded
        rcases hencoded with rfl | rfl | rfl | rfl <;> rw [UInt8.toNat_ofNat'] at hbyte <;> omega

theorem not_mem_ofText {text : String} {byte : UInt8} {c : Char} (hbyte : byte.toNat < 128)
    (hc : c.toNat = byte.toNat) (htext : c ∉ text.toList) : byte ∉ ofText text := by
  intro hmem
  obtain ⟨own, hown, hvalue⟩ := exists_char_of_mem_ofText hbyte hmem
  obtain rfl : own = c := Char.toNat_inj.mp (hvalue.trans hc.symm)
  exact htext hown

end Bytes

end CanonicalMarkdown
