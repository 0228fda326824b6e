import CanonicalMarkdown.Proofs.Output.Composition

namespace CanonicalMarkdown.Output

/-! Lines behind a marker. -/

namespace Layer

theorem lead_of_ne (marker : Bytes) {byte : UInt8} (hbyte : byte ≠ Bytes.newline) :
    lead marker [byte] = marker := by
  simp [lead, hbyte]

theorem lead_newline (marker : Bytes) :
    lead marker [Bytes.newline] = marker.rdropWhile Bytes.isBlank := rfl

theorem lead_isPrefix (marker line : Bytes) : lead marker line <+: marker := by
  unfold lead
  split
  · exact List.rdropWhile_prefix Bytes.isBlank marker
  · exact List.prefix_rfl

theorem marked_line (marker : Bytes) {line : Bytes} (hline : Bytes.newline ∉ line) (rest : Bytes) :
    marked marker false (line ++ rest) = line ++ marked marker false rest := by
  induction line with
  | nil => rfl
  | cons byte line ih =>
      rw [List.mem_cons, not_or] at hline
      have hbyte : (byte == Bytes.newline) = false := beq_false_of_ne (Ne.symm hline.1)
      rw [List.cons_append, marked, hbyte, ih hline.2]
      rfl

theorem marked_opened_line (marker : Bytes) {line : Bytes} (hline : Bytes.newline ∉ line)
    (hnonempty : line ≠ []) (rest : Bytes) :
    marked marker true (line ++ rest) = marker ++ line ++ marked marker false rest := by
  obtain ⟨byte, line, rfl⟩ := List.exists_cons_of_ne_nil hnonempty
  rw [List.mem_cons, not_or] at hline
  have hbyte : (byte == Bytes.newline) = false := beq_false_of_ne (Ne.symm hline.1)
  rw [List.cons_append, marked, hbyte, marked_line marker hline.2,
    lead_of_ne marker (Ne.symm hline.1)]
  simp

theorem exists_marked_true (marker data : Bytes) :
    ∃ opening, marked marker true data = opening ++ marked marker false data := by
  cases data with
  | nil => exact ⟨[], rfl⟩
  | cons byte rest => exact ⟨lead marker [byte], rfl⟩

/-! A margin in a margin. The inner marker is what the outer margin sees first of a line, unless
nothing is left of it. -/

theorem rdropWhile_append_of_eq_nil {α : Type} (p : α → Bool) (first : List α) {second : List α}
    (hsecond : second.rdropWhile p = []) : (first ++ second).rdropWhile p = first.rdropWhile p := by
  have hrest : (first.rtakeWhile p ++ second).rdropWhile p = [] := by
    rw [List.rdropWhile_eq_nil_iff] at hsecond ⊢
    intro entry hentry
    rcases List.mem_append.mp hentry with hfirst | hsecond'
    · exact List.mem_rtakeWhile_imp hfirst
    · exact hsecond entry hsecond'
  rw [rdropWhile_append, hrest, List.append_nil]

theorem lead_append_of_eq_nil (outer : Bytes) {inner : Bytes} {byte : UInt8}
    (hinner : lead inner [byte] = []) : lead (outer ++ inner) [byte] = lead outer [byte] := by
  by_cases hbyte : byte = Bytes.newline
  · subst hbyte
    rw [lead_newline] at hinner
    rw [lead_newline, lead_newline, rdropWhile_append_of_eq_nil _ _ hinner]
  · rw [lead_of_ne inner hbyte] at hinner
    rw [hinner, List.append_nil]

theorem lead_append_of_ne_nil (outer : Bytes) {inner : Bytes} {byte : UInt8}
    (hinner : lead inner [byte] ≠ []) :
    lead (outer ++ inner) [byte] = outer ++ lead inner [byte] := by
  by_cases hbyte : byte = Bytes.newline
  · subst hbyte
    rw [lead_newline] at hinner
    rw [lead_newline, lead_newline, rdropWhile_append_of_ne_nil _ _ _ hinner]
  · rw [lead_of_ne _ hbyte, lead_of_ne _ hbyte]

section

variable {inner : Bytes} (hinner : Bytes.newline ∉ inner)
include hinner

theorem marked_lead (outer : Bytes) (byte : UInt8) (rest : Bytes) :
    marked outer true (lead inner [byte] ++ byte :: rest) =
      lead (outer ++ inner) [byte] ++ byte :: marked outer (byte == Bytes.newline) rest := by
  have hlead : Bytes.newline ∉ lead inner [byte] := fun hmem =>
    hinner ((lead_isPrefix inner [byte]).subset hmem)
  by_cases hempty : lead inner [byte] = []
  · rw [hempty, List.nil_append, marked, if_pos rfl, lead_append_of_eq_nil outer hempty]
  · rw [marked_opened_line outer hlead hempty, lead_append_of_ne_nil outer hempty, marked]
    rfl

theorem marked_marked (outer : Bytes) (atLineStart : Bool) (data : Bytes) :
    marked outer atLineStart (marked inner atLineStart data) =
      marked (outer ++ inner) atLineStart data := by
  induction data generalizing atLineStart with
  | nil => rfl
  | cons byte rest ih =>
      cases atLineStart with
      | false =>
          change byte :: marked outer _ (marked inner _ rest) = byte :: marked _ _ rest
          rw [ih]
      | true =>
          change marked outer true (lead inner [byte] ++ byte :: marked inner _ rest) =
            lead (outer ++ inner) [byte] ++ byte :: marked _ _ rest
          rw [marked_lead hinner, ih]

end

theorem lineStarts_concat (atLineStart : Bool) (data : Bytes) (byte : UInt8) :
    lineStarts atLineStart (data ++ [byte]) = (byte == Bytes.newline) := by
  rw [lineStarts_append]
  rfl

/-- A margin comes before a line and so never decides where the next one starts. -/
theorem lineStarts_marked (marker : Bytes) (atLineStart : Bool) (data : Bytes) :
    lineStarts atLineStart (marked marker atLineStart data) = lineStarts atLineStart data := by
  rcases List.eq_nil_or_concat' data with rfl | ⟨front, last, rfl⟩
  · rfl
  · have hlast : marked marker atLineStart (front ++ [last]) =
        marked marker atLineStart front ++
          (if lineStarts atLineStart front then lead marker [last] else []) ++ [last] := by
      rw [marked_append, List.append_assoc]
      rfl
    rw [hlast, lineStarts_concat, lineStarts_concat]

end Layer

namespace Tower

/-- Whatever is written through either of the layers, every call reports the same and leaves the
same bytes in the buffer below. -/
def WriteAlike (layers others : List Layer) : Prop :=
  ∀ (buffer : Buffer) (chunks : List Chunk),
    let calls := chunks.map Operation.write
    ((stacked layers buffer).performAll calls).map
        (fun outcome => (outcome.result, Sink.contents outcome.state.sink)) =
      ((stacked others buffer).performAll calls).map
        (fun outcome => (outcome.result, Sink.contents outcome.state.sink))

section

variable (outer : Bytes) (atLineStart : Bool) (buffer : Buffer) (data : Bytes)

theorem fed_margin :
    (stacked [.margin outer atLineStart] buffer).fed data =
      stacked [.margin outer (Layer.lineStarts atLineStart data)]
        (Writer.fed buffer (Layer.marked outer atLineStart data)) := by
  have hfed := Layered.fed_eq data (⟨.margin outer atLineStart, buffer⟩ : Layered Buffer)
  exact congrArg (Tower.mk 1) hfed

/-- Two margins whose lines start together go on doing so. -/
theorem fed_margins {inner : Bytes} (hinner : Bytes.newline ∉ inner) :
    (stacked [.margin outer atLineStart, .margin inner atLineStart] buffer).fed data =
      stacked [.margin outer (Layer.lineStarts atLineStart data),
          .margin inner (Layer.lineStarts atLineStart data)]
        (Writer.fed buffer (Layer.marked (outer ++ inner) atLineStart data)) := by
  have hfed : Writer.fed (⟨.margin inner atLineStart,
      ⟨.margin outer atLineStart, buffer⟩⟩ : Layered (Layered Buffer)) data =
      ⟨.margin inner (Layer.lineStarts atLineStart data),
        ⟨.margin outer (Layer.lineStarts atLineStart data),
          Writer.fed buffer (Layer.marked (outer ++ inner) atLineStart data)⟩⟩ := by
    rw [Layered.fed_eq, Layered.fed_eq]
    simp only [Layer.emit, Layer.after]
    rw [Layer.marked_marked hinner, Layer.lineStarts_marked]
  exact congrArg (Tower.mk 2) hfed

end

theorem writeAlike_margins {inner : Bytes} (hinner : Bytes.newline ∉ inner) (outer : Bytes)
    (atLineStart : Bool) :
    WriteAlike [.margin outer atLineStart, .margin inner atLineStart]
      [.margin (outer ++ inner) atLineStart] := by
  intro buffer chunks
  induction chunks generalizing atLineStart buffer with
  | nil => rfl
  | cons chunk rest ih =>
      simp only [List.map_cons, performAll, perform_write, fed_margin,
        fed_margins _ _ _ _ hinner, sink_stacked]
      rw [ih]

end Tower

/-- A margin in a margin writes what a single one does whose marker is both markers together, also
on empty lines, where the white space at the end of both together is left out. Indentations add
up. -/
theorem Tower.nested_margins_compose :
    (∀ (outer inner : Bytes) (atLineStart : Bool), Bytes.newline ∉ inner →
      WriteAlike [.margin outer atLineStart, .margin inner atLineStart]
        [.margin (outer ++ inner) atLineStart]) ∧
    ∀ outer inner : Nat,
      WriteAlike [.indent outer, .indent inner] [.indent (outer + inner)] ∧
      WriteAlike [(Layer.indent outer).atLineStart, (Layer.indent inner).atLineStart]
        [(Layer.indent (outer + inner)).atLineStart] := by
  have hmargins := fun outer inner atLineStart hinner =>
    @writeAlike_margins inner hinner outer atLineStart
  refine ⟨hmargins, fun outer inner => ?_⟩
  have hspaces : Bytes.newline ∉ List.replicate inner Bytes.space := fun hmem => by
    cases List.eq_of_mem_replicate hmem
  simp only [Layer.indent, Layer.atLineStart]
  rw [List.replicate_add]
  exact ⟨hmargins _ _ _ hspaces, hmargins _ _ _ hspaces⟩

/-- A quotation in an indentation of two. Its marker loses the white space at its end before an
empty line, and the indentation around it does not. -/
theorem Tower.quotation_indented :
    let nested := stacked [.margin [32, 32] true, .margin [62, 32] true] Buffer.empty
    let calls := [Chunk.bytes [97, 10], .byte 10, .text "b"].map Operation.write
    Bytes.newline ∉ ([62, 32] : Bytes) ∧
      (nested.performAll calls).map
          (fun outcome => (outcome.result, Sink.contents outcome.state.sink)) =
        [(.ok (some 2), [32, 32, 62, 32, 97, 10]),
          (.ok none, [32, 32, 62, 32, 97, 10, 32, 32, 62, 10]),
          (.ok (some 1), [32, 32, 62, 32, 97, 10, 32, 32, 62, 10, 32, 32, 62, 32, 98])] := by
  intro nested calls
  have hinner : Bytes.newline ∉ ([62, 32] : Bytes) := by decide
  have halike := nested_margins_compose.1 [32, 32] [62, 32] true hinner Buffer.empty
    [.bytes [97, 10], .byte 10, .text "b"]
  exact ⟨hinner, halike.trans (by decide)⟩

end CanonicalMarkdown.Output
