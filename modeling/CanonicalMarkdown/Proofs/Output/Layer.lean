import CanonicalMarkdown.Output.Sink
import CanonicalMarkdown.Output.Stack
import Mathlib.Data.List.DropRight

namespace CanonicalMarkdown

/-! Lines. -/

namespace Bytes

theorem lines_eq_nil {data : Bytes} (h : data.lines = []) : data = [] := by
  cases data with
  | nil => rfl
  | cons byte rest =>
      simp only [lines] at h
      split at h
      · contradiction
      · split at h <;> contradiction

theorem ne_nil_of_mem_lines {data line : Bytes} (h : line ∈ data.lines) : line ≠ [] := by
  induction data generalizing line with
  | nil => simp [lines] at h
  | cons byte rest ih =>
      simp only [lines] at h
      split at h
      · rcases List.mem_cons.mp h with rfl | hrest
        · simp
        · exact ih hrest
      · split at h
        · simp_all
        · next first others hlines =>
            rcases List.mem_cons.mp h with rfl | hrest
            · simp
            · exact ih (by simp [hlines, hrest])

theorem endsLine_cons {line : Bytes} (hline : line ≠ []) (byte : UInt8) :
    endsLine (byte :: line) = line.endsLine := by
  obtain ⟨next, rest, rfl⟩ := List.exists_cons_of_ne_nil hline
  rfl

end Bytes

namespace Output

/-! The state that a write leaves, whatever it reports. -/

namespace Writer

variable {σ : Type} [Writer σ]

def fed (state : σ) (data : Bytes) : σ := (write data state).state

end Writer

namespace Chunk

/-- What the call that hands over a chunk reports: bulk is counted, a single byte is not. -/
def count? : Chunk → Option Nat
  | .bytes content => some content.length
  | .text content => some (Bytes.ofText content).length
  | .byte _ => none

end Chunk

/-- A writer that never fails and to which it makes no difference how its bytes are divided among
calls. -/
class Steady (σ : Type) [Writer σ] : Prop where
  write_result : ∀ (data : Bytes) (state : σ),
    (Writer.write data state).result = .ok data.length
  writeByte_eq : ∀ (byte : UInt8) (state : σ),
    Writer.writeByte byte state = (Writer.write [byte] state).map fun _ => ()
  fed_nil : ∀ state : σ, Writer.fed state [] = state
  fed_append : ∀ (state : σ) (first second : Bytes),
    Writer.fed state (first ++ second) = Writer.fed (Writer.fed state first) second

namespace Steady

variable {σ : Type} [Writer σ] [Steady σ]

theorem write_eq (data : Bytes) (state : σ) :
    Writer.write data state = ⟨.ok data.length, Writer.fed state data⟩ := by
  rw [← write_result data state]
  rfl

theorem writeByte_eq_fed (byte : UInt8) (state : σ) :
    Writer.writeByte byte state = ⟨.ok (), Writer.fed state [byte]⟩ := by
  rw [writeByte_eq, write_eq]
  rfl

theorem put_eq (chunk : Chunk) (state : σ) :
    Writer.put chunk state = ⟨.ok chunk.count?, Writer.fed state chunk.data⟩ := by
  cases chunk with
  | bytes content => simp [Writer.put, write_eq, Outcome.map, Except.map, Chunk.count?, Chunk.data]
  | text content =>
      simp [Writer.put, Writer.writeText, write_eq, Outcome.map, Except.map, Chunk.count?,
        Chunk.data]
  | byte single =>
      simp [Writer.put, writeByte_eq_fed, Outcome.map, Except.map, Chunk.count?, Chunk.data]

end Steady

/-! A layer as a function of bytes: what it passes on, and what becomes of it. -/

namespace Layer

/-- The bytes with the marker of a margin put before the lines among them. -/
def marked (marker : Bytes) : (atLineStart : Bool) → Bytes → Bytes
  | _, [] => []
  | atLineStart, byte :: rest =>
      (if atLineStart then lead marker [byte] else []) ++
        byte :: marked marker (byte == Bytes.newline) rest

/-- Whether a line starts after the bytes. -/
def lineStarts (atLineStart : Bool) (data : Bytes) : Bool :=
  data.foldl (fun _ byte => byte == Bytes.newline) atLineStart

def emit : Layer → Bytes → Bytes
  | .margin marker atLineStart, data => marked marker atLineStart data
  | .trim byte pending, data => (List.replicate pending byte ++ data).rdropWhile (· == byte)

def after : Layer → Bytes → Layer
  | .margin marker atLineStart, data => .margin marker (lineStarts atLineStart data)
  | .trim byte pending, data =>
      .trim byte ((List.replicate pending byte ++ data).rtakeWhile (· == byte)).length

theorem marked_append (marker : Bytes) (atLineStart : Bool) (first second : Bytes) :
    marked marker atLineStart (first ++ second) =
      marked marker atLineStart first ++
        marked marker (lineStarts atLineStart first) second := by
  induction first generalizing atLineStart with
  | nil => rfl
  | cons byte rest ih => simp [marked, lineStarts, ih]

theorem lineStarts_append (atLineStart : Bool) (first second : Bytes) :
    lineStarts atLineStart (first ++ second) =
      lineStarts (lineStarts atLineStart first) second :=
  List.foldl_append

/-! A run that is held back stands in front of what comes next. -/

section

variable {α : Type} (p : α → Bool) (first second : List α)

theorem rdropWhile_append_of_ne_nil (hsecond : second.rdropWhile p ≠ []) :
    (first ++ second).rdropWhile p = first ++ second.rdropWhile p := by
  simp only [List.rdropWhile, ne_eq, List.reverse_eq_nil_iff] at hsecond ⊢
  rw [List.reverse_append, List.dropWhile_append, if_neg (by simpa using hsecond)]
  simp

theorem rtakeWhile_append_of_ne_nil (hsecond : second.rdropWhile p ≠ []) :
    (first ++ second).rtakeWhile p = second.rtakeWhile p := by
  have hwhole : (first ++ second).rdropWhile p ++ (first ++ second).rtakeWhile p =
      first ++ second := List.rdropWhile_append_rtakeWhile
  have hparts : second.rdropWhile p ++ second.rtakeWhile p = second :=
    List.rdropWhile_append_rtakeWhile
  rw [rdropWhile_append_of_ne_nil p first second hsecond, List.append_assoc] at hwhole
  exact List.append_cancel_left ((List.append_cancel_left hwhole).trans hparts.symm)

theorem rdropWhile_append_of_settled (hsettled : first.rdropWhile p = first) :
    (first ++ second).rdropWhile p = first ++ second.rdropWhile p := by
  simp only [List.rdropWhile] at hsettled ⊢
  rw [List.reverse_append, List.dropWhile_append]
  split
  · next hempty =>
      rw [List.isEmpty_iff.mp hempty, hsettled]
      simp
  · simp

theorem rdropWhile_append :
    (first ++ second).rdropWhile p =
      first.rdropWhile p ++ (first.rtakeWhile p ++ second).rdropWhile p := by
  rw [← rdropWhile_append_of_settled p _ _ (List.rdropWhile_idempotent p first),
    ← List.append_assoc, List.rdropWhile_append_rtakeWhile]

theorem rtakeWhile_append :
    (first ++ second).rtakeWhile p = (first.rtakeWhile p ++ second).rtakeWhile p := by
  have hwhole : (first ++ second).rdropWhile p ++ (first ++ second).rtakeWhile p =
      first ++ second := List.rdropWhile_append_rtakeWhile
  have hrest : (first.rtakeWhile p ++ second).rdropWhile p ++
      (first.rtakeWhile p ++ second).rtakeWhile p = first.rtakeWhile p ++ second :=
    List.rdropWhile_append_rtakeWhile
  have hfirst : first.rdropWhile p ++ first.rtakeWhile p = first :=
    List.rdropWhile_append_rtakeWhile
  have hsame : (first ++ second).rdropWhile p ++ (first ++ second).rtakeWhile p =
      (first ++ second).rdropWhile p ++ (first.rtakeWhile p ++ second).rtakeWhile p := by
    rw [hwhole, rdropWhile_append, List.append_assoc, hrest, ← List.append_assoc, hfirst]
  exact List.append_cancel_left hsame

end

theorem rtakeWhile_eq_replicate (byte : UInt8) (data : Bytes) :
    data.rtakeWhile (· == byte) =
      List.replicate (data.rtakeWhile (· == byte)).length byte := by
  apply List.eq_replicate_length.mpr
  intro other hother
  simpa using List.mem_rtakeWhile_imp hother

theorem emit_append (layer : Layer) (first second : Bytes) :
    layer.emit (first ++ second) = layer.emit first ++ (layer.after first).emit second := by
  cases layer with
  | margin marker atLineStart => exact marked_append marker atLineStart first second
  | trim byte pending =>
      simp only [emit, after]
      rw [← rtakeWhile_eq_replicate, ← rdropWhile_append, List.append_assoc]

theorem after_append (layer : Layer) (first second : Bytes) :
    layer.after (first ++ second) = (layer.after first).after second := by
  cases layer with
  | margin marker atLineStart => exact congrArg (margin marker) (lineStarts_append _ _ _)
  | trim byte pending =>
      simp only [after]
      rw [← rtakeWhile_eq_replicate, ← rtakeWhile_append, List.append_assoc]

theorem emit_nil (layer : Layer) : layer.emit [] = [] := by
  cases layer with
  | margin marker atLineStart => rfl
  | trim byte pending => simp [emit]

theorem after_nil (layer : Layer) : layer.after [] = layer := by
  cases layer with
  | margin marker atLineStart => rfl
  | trim byte pending =>
      have hall : (List.replicate pending byte).rtakeWhile (· == byte) =
          List.replicate pending byte := by simp
      simp [after, hall]

end Layer

/-! Over a steady writer a layer does what its functions of bytes say. -/

namespace Layered

open Writer

variable {σ : Type} [Writer σ] [Steady σ]

theorem pass_eq (data : Bytes) (layer : Layer) (below : σ) :
    pass data ⟨layer, below⟩ = ⟨.ok (), ⟨layer, fed below data⟩⟩ := by
  simp [pass, onBelow, Steady.write_eq, Except.map]

theorem passByte_eq (byte : UInt8) (layer : Layer) (below : σ) :
    passByte byte ⟨layer, below⟩ = ⟨.ok (), ⟨layer, fed below [byte]⟩⟩ := by
  simp [passByte, onBelow, Steady.writeByte_eq_fed, Except.map]

theorem passUnlessEmpty_eq (data : Bytes) (layer : Layer) (below : σ) :
    passUnlessEmpty data ⟨layer, below⟩ = ⟨.ok (), ⟨layer, fed below data⟩⟩ := by
  cases data with
  | nil => simp [passUnlessEmpty, Action.skip, Steady.fed_nil]
  | cons byte rest => exact pass_eq (byte :: rest) layer below

/-! Margins. -/

theorem openLine_eq (marker line : Bytes) (atLineStart : Bool) (below : σ) :
    openLine marker line atLineStart ⟨.margin marker atLineStart, below⟩ =
      ⟨.ok (), ⟨.margin marker false,
        fed below (if atLineStart then Layer.lead marker line else [])⟩⟩ := by
  cases atLineStart with
  | false => simp [openLine, Action.skip, Steady.fed_nil]
  | true => simp [openLine, Action.andThen, passUnlessEmpty_eq, become]

theorem writeLine_eq (marker line : Bytes) (atLineStart : Bool) (below : σ) :
    writeLine marker line atLineStart ⟨.margin marker atLineStart, below⟩ =
      ⟨.ok (), ⟨.margin marker line.endsLine,
        fed below ((if atLineStart then Layer.lead marker line else []) ++ line)⟩⟩ := by
  simp [writeLine, Action.andThen, openLine_eq, pass_eq, become, Steady.fed_append]

theorem writeLineByte_eq (marker : Bytes) (byte : UInt8) (atLineStart : Bool) (below : σ) :
    writeLineByte marker byte atLineStart ⟨.margin marker atLineStart, below⟩ =
      ⟨.ok (), ⟨.margin marker (byte == Bytes.newline),
        fed below (Layer.marked marker atLineStart [byte])⟩⟩ := by
  simp [writeLineByte, Action.andThen, openLine_eq, passByte_eq, become, Steady.fed_append,
    Layer.marked]

/-- The first byte of a line may be written apart from the others. -/
theorem writeLine_cons (marker line : Bytes) {byte : UInt8} (hbyte : byte ≠ Bytes.newline)
    (hline : line ≠ []) (atLineStart : Bool) (below : σ) :
    writeLine marker (byte :: line) atLineStart ⟨.margin marker atLineStart, below⟩ =
      writeLine marker line false
        ⟨.margin marker false, fed below (Layer.marked marker atLineStart [byte])⟩ := by
  rw [writeLine_eq, writeLine_eq, Bytes.endsLine_cons hline]
  simp [Layer.marked, Layer.lead, hbyte, ← Steady.fed_append]

theorem writeLines_eq (marker data : Bytes) (atLineStart : Bool) (below : σ) :
    writeLines marker atLineStart data.lines ⟨.margin marker atLineStart, below⟩ =
      ⟨.ok (), ⟨.margin marker (Layer.lineStarts atLineStart data),
        fed below (Layer.marked marker atLineStart data)⟩⟩ := by
  induction data generalizing atLineStart below with
  | nil =>
      simp [Bytes.lines, writeLines, Action.skip, Layer.lineStarts, Layer.marked, Steady.fed_nil]
  | cons byte rest ih =>
      by_cases hbyte : byte = Bytes.newline
      · subst hbyte
        simp [Bytes.lines, writeLines, Action.andThen, writeLine_eq, Bytes.endsLine, ih,
          Layer.lineStarts, Layer.marked, ← Steady.fed_append]
      · -- The byte belongs to the first of the lines after it, if there is one.
        have hfalse : (byte == Bytes.newline) = false := beq_false_of_ne hbyte
        have hmarked : Layer.marked marker atLineStart (byte :: rest) =
            Layer.marked marker atLineStart [byte] ++ Layer.marked marker false rest := by
          simp [Layer.marked, hfalse]
        have hstart := ih false (fed below (Layer.marked marker atLineStart [byte]))
        rw [hmarked, Steady.fed_append]
        cases hlines : Bytes.lines rest with
        | nil =>
            obtain rfl := Bytes.lines_eq_nil hlines
            simp [Bytes.lines, hbyte, writeLines, Action.andThen, Action.skip, writeLine_eq,
              Bytes.endsLine, Layer.lineStarts, Layer.marked, Steady.fed_nil]
        | cons line others =>
            have hmem : line ∈ Bytes.lines rest := by simp [hlines]
            have hline := Bytes.ne_nil_of_mem_lines hmem
            rw [hlines] at hstart
            simp only [Bytes.lines, hbyte, if_false, hlines, writeLines, Action.andThen,
              Bytes.endsLine_cons hline, writeLine_cons marker line hbyte hline]
            simpa [writeLines, Action.andThen, Layer.lineStarts, hfalse] using hstart

/-! Held back runs. -/

theorem release_eq (byte : UInt8) (rest pieces : Nat) (layer : Layer) (below : σ) :
    release byte rest pieces ⟨layer, below⟩ =
      ⟨.ok (), ⟨.trim byte 0, fed below (List.replicate (pieceSize * pieces + rest) byte)⟩⟩ := by
  induction pieces generalizing layer below with
  | zero => simp [release, Action.andThen, passUnlessEmpty_eq, become]
  | succ pieces ih =>
      have hcount : pieceSize * (pieces + 1) + rest = pieceSize + (pieceSize * pieces + rest) := by
        rw [Nat.mul_succ]
        omega
      have hrun : List.replicate (pieceSize * (pieces + 1) + rest) byte =
          List.replicate pieceSize byte ++ List.replicate (pieceSize * pieces + rest) byte := by
        rw [hcount, List.replicate_add]
      simp only [release, Action.andThen, pass_eq, become, ih]
      rw [hrun, Steady.fed_append]

theorem releaseAll_eq (byte : UInt8) (pending : Nat) (layer : Layer) (below : σ) :
    release byte (pending % pieceSize) (pending / pieceSize) ⟨layer, below⟩ =
      ⟨.ok (), ⟨.trim byte 0, fed below (List.replicate pending byte)⟩⟩ := by
  rw [release_eq, Nat.div_add_mod]

theorem writeTrimmed_eq (byte : UInt8) (pending : Nat) (data : Bytes) (below : σ) :
    writeTrimmed byte pending data ⟨.trim byte pending, below⟩ =
      ⟨.ok (), ⟨(Layer.trim byte pending).after data,
        fed below ((Layer.trim byte pending).emit data)⟩⟩ := by
  have hparts : data.rdropWhile (· == byte) ++ data.rtakeWhile (· == byte) = data :=
    List.rdropWhile_append_rtakeWhile
  have hheld : data.length - (data.rdropWhile (· == byte)).length =
      (data.rtakeWhile (· == byte)).length := by
    have hlength := congrArg List.length hparts
    rw [List.length_append] at hlength
    omega
  have hdrop : Bytes.dropTailWhile (· == byte) data = data.rdropWhile (· == byte) := rfl
  simp only [writeTrimmed, hdrop, hheld, List.isEmpty_iff, Layer.emit, Layer.after]
  split
  · next hbody =>
      -- Nothing but the held back byte came, so all of it joins the run.
      rw [hbody, List.nil_append] at hparts
      have hrun : List.replicate pending byte ++ data =
          List.replicate (pending + data.length) byte := by
        rw [List.replicate_add, ← hparts, ← Layer.rtakeWhile_eq_replicate]
      have hdropped : (List.replicate (pending + data.length) byte).rdropWhile (· == byte) = [] :=
        List.rdropWhile_eq_nil_iff.mpr (by simp)
      have htaken : (List.replicate (pending + data.length) byte).rtakeWhile (· == byte) =
          List.replicate (pending + data.length) byte :=
        List.rtakeWhile_eq_self_iff.mpr (by simp)
      rw [hrun, hdropped, htaken, hparts, List.length_replicate, Steady.fed_nil]
      rfl
  · next hbody =>
      rw [Layer.rdropWhile_append_of_ne_nil _ _ _ hbody,
        Layer.rtakeWhile_append_of_ne_nil _ _ _ hbody, Steady.fed_append]
      simp [Action.andThen, releaseAll_eq, pass_eq, become]

theorem writeTrimmedByte_eq (byte : UInt8) (pending : Nat) (next : UInt8) (below : σ) :
    writeTrimmedByte byte pending next ⟨.trim byte pending, below⟩ =
      writeTrimmed byte pending [next] ⟨.trim byte pending, below⟩ := by
  by_cases hnext : next = byte
  · simp [writeTrimmedByte, writeTrimmed, Bytes.dropTailWhile, hnext]
  · simp [writeTrimmedByte, writeTrimmed, Bytes.dropTailWhile, hnext, Action.andThen,
      releaseAll_eq, pass_eq, passByte_eq, become]

/-! Both layers at once. -/

theorem write_eq (data : Bytes) (writer : Layered σ) :
    write data writer =
      ⟨.ok data.length, ⟨writer.layer.after data, fed writer.below (writer.layer.emit data)⟩⟩ := by
  obtain ⟨layer, below⟩ := writer
  cases layer with
  | margin marker atLineStart =>
      change (writeLines marker atLineStart data.lines ⟨.margin marker atLineStart, below⟩).map
        (fun _ => data.length) = _
      rw [writeLines_eq]
      rfl
  | trim byte pending =>
      change (writeTrimmed byte pending data ⟨.trim byte pending, below⟩).map
        (fun _ => data.length) = _
      rw [writeTrimmed_eq]
      rfl

theorem fed_eq (data : Bytes) (writer : Layered σ) :
    fed writer data = ⟨writer.layer.after data, fed writer.below (writer.layer.emit data)⟩ := by
  rw [fed, write_eq]

theorem writeByte_eq (byte : UInt8) (writer : Layered σ) :
    writeByte byte writer = (write [byte] writer).map fun _ => () := by
  obtain ⟨layer, below⟩ := writer
  rw [write_eq]
  cases layer with
  | margin marker atLineStart => exact writeLineByte_eq marker byte atLineStart below
  | trim held pending =>
      exact (writeTrimmedByte_eq held pending byte below).trans
        (writeTrimmed_eq held pending [byte] below)

instance : Steady (Layered σ) where
  write_result data writer := by rw [write_eq]
  writeByte_eq := writeByte_eq
  fed_nil writer := by rw [fed_eq, Layer.after_nil, Layer.emit_nil, Steady.fed_nil]
  fed_append writer first second := by
    simp only [fed_eq, Layer.after_append, Layer.emit_append, Steady.fed_append]

end Layered

/-! The writers at the bottom and the stacks over them. -/

namespace Buffer

theorem contents_fed (buffer : Buffer) (data : Bytes) :
    Sink.contents (Writer.fed buffer data) = Sink.contents buffer ++ data := by
  change (data.foldl Array.push buffer.bytes).toList = buffer.bytes.toList ++ data
  induction data generalizing buffer with
  | nil => simp
  | cons byte rest ih =>
      rw [List.foldl_cons, ih ⟨buffer.bytes.push byte⟩]
      simp

theorem contents_fed_empty (data : Bytes) : Sink.contents (Writer.fed empty data) = data :=
  contents_fed empty data

instance : Steady Buffer where
  write_result _ _ := rfl
  writeByte_eq _ _ := rfl
  fed_nil _ := rfl
  fed_append buffer first second := by
    change Buffer.push buffer (first ++ second) = Buffer.push (Buffer.push buffer first) second
    simp [Buffer.push, List.foldl_append]

end Buffer

namespace Stack

theorem steady (σ : Type) [Writer σ] [Steady σ] : (depth : Nat) → Steady (Stack σ depth)
  | 0 => inferInstanceAs (Steady σ)
  | depth + 1 =>
      have := steady σ depth
      inferInstanceAs (Steady (Layered (Stack σ depth)))

instance (σ : Type) [Writer σ] [Steady σ] (depth : Nat) : Steady (Stack σ depth) :=
  steady σ depth

end Stack

end Output

end CanonicalMarkdown
