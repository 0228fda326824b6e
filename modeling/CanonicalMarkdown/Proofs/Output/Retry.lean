import CanonicalMarkdown.Proofs.Output.Comparison

namespace CanonicalMarkdown.Output

/-! Sinks that take all of what a call hands over, or fail and take none of it. -/

section

variable {σ : Type} [Sink σ]

inductive Takes {α : Type} (before : σ) (data : Bytes) : Outcome WriteError σ α → Prop
  | all {value : α} {after : σ} : Sink.contents after = Sink.contents before ++ data →
      Takes before data ⟨.ok value, after⟩
  | none {error : WriteError} {after : σ} : Sink.contents after = Sink.contents before →
      Takes before data ⟨.error error, after⟩

end

/-- Which of its calls fail is up to the sink. -/
class AllOrNothing (σ : Type) [Sink σ] : Prop where
  write : ∀ (data : Bytes) (before : σ), Takes before data (Writer.write data before)
  writeByte : ∀ (byte : UInt8) (before : σ), Takes before [byte] (Writer.writeByte byte before)

/-! A buffer some of whose calls fail. -/

structure Intermittent where
  taken : Bytes
  /-- Which of the calls to come fail; those after them do not. -/
  failures : List Bool
  deriving DecidableEq, Repr

namespace Intermittent

instance : Sink Intermittent where
  write data := fun sink =>
    match sink.failures with
    | true :: later => ⟨.error .full, ⟨sink.taken, later⟩⟩
    | _ => ⟨.ok data.length, ⟨sink.taken ++ data, sink.failures.tail⟩⟩
  contents := taken

theorem takes_write (data : Bytes) (before : Intermittent) :
    Takes before data (Writer.write data before) := by
  change Takes before data (match before.failures with
    | true :: later => ⟨.error .full, ⟨before.taken, later⟩⟩
    | _ => ⟨.ok data.length, ⟨before.taken ++ data, before.failures.tail⟩⟩)
  split
  · exact .none rfl
  · exact .all rfl

instance : AllOrNothing Intermittent where
  write := takes_write
  writeByte byte before := by
    have htakes := takes_write [byte] before
    change Takes before [byte] ((Writer.write [byte] before).map fun _ => ())
    generalize Writer.write [byte] before = outcome at htakes
    cases htakes with
    | all hcontents => exact .all hcontents
    | none hcontents => exact .none hcontents

end Intermittent

/-- An action tried again after each failure until it goes through. -/
inductive Action.Retried {ε σ : Type} (action : Action ε σ) (final : σ) : σ → Prop
  | through {state : σ} : action state = ⟨.ok (), final⟩ → Retried action final state
  | again {state reached : σ} {error : ε} : action state = ⟨.error error, reached⟩ →
      Retried action final reached → Retried action final state

theorem Outcome.eq_error_of_map {ε σ α β : Type} {change : α → β} {outcome : Outcome ε σ α}
    {error : ε} {state : σ} (hmap : outcome.map change = ⟨.error error, state⟩) :
    outcome = ⟨.error error, state⟩ := by
  obtain ⟨result, reached⟩ := outcome
  cases result with
  | ok value => cases hmap
  | error other =>
      cases hmap
      rfl

namespace Layered

variable {σ : Type} [Sink σ]

/-! What is passed on arrives as a whole or not at all, and changes no layer. -/

/-- The outcome of passing bytes on. -/
inductive Passes (layer : Layer) (below : σ) (data : Bytes) :
    Outcome WriteError (Layered σ) Unit → Prop
  | all {reached : σ} : Sink.contents reached = Sink.contents below ++ data →
      Passes layer below data ⟨.ok (), ⟨layer, reached⟩⟩
  | none {error : WriteError} {reached : σ} : Sink.contents reached = Sink.contents below →
      Passes layer below data ⟨.error error, ⟨layer, reached⟩⟩

theorem passes_onBelow {α : Type} {action : Action WriteError σ α} {below : σ} {data : Bytes}
    (htakes : Takes below data (action below)) (layer : Layer) :
    Passes layer below data (onBelow action ⟨layer, below⟩) := by
  rw [onBelow]
  generalize action below = outcome at htakes
  cases htakes with
  | all hcontents => exact .all hcontents
  | none hcontents => exact .none hcontents

theorem Passes.andThen {layer : Layer} {below : σ} {data : Bytes}
    {first : Action WriteError (Layered σ)} {writer : Layered σ}
    (hfirst : Passes layer below data (first writer)) (second : Action WriteError (Layered σ)) :
    ∃ reached : σ,
      (Sink.contents reached = Sink.contents below ++ data ∧
        first.andThen second writer = second ⟨layer, reached⟩) ∨
      Sink.contents reached = Sink.contents below ∧
        ∃ error, first.andThen second writer = ⟨.error error, ⟨layer, reached⟩⟩ := by
  rw [Action.andThen]
  generalize first writer = outcome at hfirst
  cases hfirst with
  | all hcontents => exact ⟨_, .inl ⟨hcontents, rfl⟩⟩
  | none hcontents => exact ⟨_, .inr ⟨hcontents, _, rfl⟩⟩

section

variable [AllOrNothing σ]

theorem passes_pass (data : Bytes) (layer : Layer) (below : σ) :
    Passes layer below data (pass data ⟨layer, below⟩) :=
  passes_onBelow (AllOrNothing.write data below) layer

theorem passes_passByte (byte : UInt8) (layer : Layer) (below : σ) :
    Passes layer below [byte] (passByte byte ⟨layer, below⟩) :=
  passes_onBelow (AllOrNothing.writeByte byte below) layer

theorem passes_passUnlessEmpty (data : Bytes) (layer : Layer) (below : σ) :
    Passes layer below data (passUnlessEmpty data ⟨layer, below⟩) := by
  cases data with
  | nil => exact .all (List.append_nil _).symm
  | cons byte rest => exact passes_pass (byte :: rest) layer below

end

/-! A held back run. What has arrived and what is still held back are together always the same. -/

/-- The outcome of passing on what is held back: all of it, or a part and then a failure. -/
inductive Releases (byte : UInt8) (account : Bytes) :
    Outcome WriteError (Layered σ) Unit → Prop
  | all {reached : σ} : Sink.contents reached = account →
      Releases byte account ⟨.ok (), ⟨.trim byte 0, reached⟩⟩
  | part {error : WriteError} {held : Nat} {reached : σ} :
      Sink.contents reached ++ List.replicate held byte = account →
      Releases byte account ⟨.error error, ⟨.trim byte held, reached⟩⟩

/-- What comes after the held back run may fail as well, if it takes nothing then. -/
theorem Releases.andThen {byte : UInt8} {account : Bytes}
    {first second : Action WriteError (Layered σ)} {writer : Layered σ}
    (hfirst : Releases byte account (first writer))
    (hsecond : ∀ (reached : σ) (error : WriteError) (after : Layered σ),
      second ⟨.trim byte 0, reached⟩ = ⟨.error error, after⟩ →
        after.layer = .trim byte 0 ∧ Sink.contents after.below = Sink.contents reached)
    {error : WriteError} {after : Layered σ}
    (hfails : first.andThen second writer = ⟨.error error, after⟩) :
    ∃ held, after.layer = .trim byte held ∧
      Sink.contents after.below ++ List.replicate held byte = account := by
  rw [Action.andThen] at hfails
  generalize first writer = outcome at hfirst hfails
  cases hfirst with
  | @all reached hcontents =>
      obtain ⟨hlayer, hbelow⟩ := hsecond reached error after hfails
      exact ⟨0, hlayer, by rw [hbelow, hcontents, List.replicate_zero, List.append_nil]⟩
  | part haccount =>
      cases hfails
      exact ⟨_, rfl, haccount⟩

section

variable [AllOrNothing σ]

theorem releases_release (byte : UInt8) (rest pieces : Nat) (below : σ) :
    Releases byte (Sink.contents below ++ List.replicate (pieceSize * pieces + rest) byte)
      (release byte rest pieces ⟨.trim byte (pieceSize * pieces + rest), below⟩) := by
  induction pieces generalizing below with
  | zero =>
      rw [Nat.mul_zero, Nat.zero_add, release]
      obtain ⟨reached, ⟨hcontents, hthrough⟩ | ⟨hcontents, error, hfails⟩⟩ :=
        (passes_passUnlessEmpty (List.replicate rest byte) (.trim byte rest) below).andThen
          (become (.trim byte 0))
      · rw [hthrough, ← hcontents]
        exact .all rfl
      · rw [hfails, ← hcontents]
        exact .part rfl
  | succ pieces ih =>
      have hcount : pieceSize * (pieces + 1) + rest = pieceSize + (pieceSize * pieces + rest) := by
        rw [Nat.mul_succ]
        omega
      rw [release]
      obtain ⟨reached, ⟨hcontents, hthrough⟩ | ⟨hcontents, error, hfails⟩⟩ :=
        (passes_pass (List.replicate pieceSize byte)
          (.trim byte (pieceSize * (pieces + 1) + rest)) below).andThen
            ((become (.trim byte (pieceSize * pieces + rest))).andThen (release byte rest pieces))
      · have hlater := ih reached
        rw [hcontents, List.append_assoc, ← List.replicate_add, ← hcount] at hlater
        rw [hthrough]
        exact hlater
      · rw [hfails, ← hcontents]
        exact .part rfl

theorem releases_pending (byte : UInt8) (pending : Nat) (below : σ) :
    Releases byte (Sink.contents below ++ List.replicate pending byte)
      (release byte (pending % pieceSize) (pending / pieceSize) ⟨.trim byte pending, below⟩) := by
  have hreleases := releases_release byte (pending % pieceSize) (pending / pieceSize) below
  rwa [Nat.div_add_mod] at hreleases

theorem writeTrimmed_fails {byte : UInt8} {pending : Nat} {data : Bytes} {below : σ}
    {error : WriteError} {after : Layered σ}
    (hfails : writeTrimmed byte pending data ⟨.trim byte pending, below⟩ = ⟨.error error, after⟩) :
    ∃ held, after.layer = .trim byte held ∧ Sink.contents after.below ++ List.replicate held byte =
      Sink.contents below ++ List.replicate pending byte := by
  simp only [writeTrimmed] at hfails
  split at hfails
  · cases hfails
  · refine (releases_pending byte pending below).andThen ?_ hfails
    intro reached error after hrest
    obtain ⟨later, ⟨-, hthrough⟩ | ⟨hcontents, other, hpass⟩⟩ :=
      (passes_pass (Bytes.dropTailWhile (· == byte) data) (.trim byte 0) reached).andThen
        (become (.trim byte (data.length - (Bytes.dropTailWhile (· == byte) data).length)))
    · rw [hthrough] at hrest
      cases hrest
    · rw [hpass] at hrest
      cases hrest
      exact ⟨rfl, hcontents⟩

theorem writeTrimmedByte_fails {byte next : UInt8} {pending : Nat} {below : σ}
    {error : WriteError} {after : Layered σ}
    (hfails : writeTrimmedByte byte pending next ⟨.trim byte pending, below⟩ =
      ⟨.error error, after⟩) :
    ∃ held, after.layer = .trim byte held ∧ Sink.contents after.below ++ List.replicate held byte =
      Sink.contents below ++ List.replicate pending byte := by
  rw [writeTrimmedByte] at hfails
  split at hfails
  · cases hfails
  · refine (releases_pending byte pending below).andThen ?_ hfails
    intro reached error after hpass
    have hpasses := passes_passByte next (.trim byte 0) reached
    rw [hpass] at hpasses
    cases hpasses with
    | none hcontents => exact ⟨rfl, hcontents⟩

theorem put_trim_fails {byte : UInt8} {pending : Nat} {chunk : Chunk} {below : σ}
    {error : WriteError} {after : Layered σ}
    (hfails : Writer.put chunk (⟨.trim byte pending, below⟩ : Layered σ) = ⟨.error error, after⟩) :
    ∃ held, after.layer = .trim byte held ∧ Sink.contents after.below ++ List.replicate held byte =
      Sink.contents below ++ List.replicate pending byte := by
  cases chunk with
  | bytes data =>
      exact writeTrimmed_fails (Outcome.eq_error_of_map (Outcome.eq_error_of_map hfails))
  | text content =>
      exact writeTrimmed_fails (Outcome.eq_error_of_map (Outcome.eq_error_of_map hfails))
  | byte single => exact writeTrimmedByte_fails (Outcome.eq_error_of_map hfails)

/-! The marker of a margin counts as written as soon as it has arrived, so that what is still to
come of a byte and its marker is always what has not arrived. -/

theorem openLine_cases (marker line : Bytes) (atLineStart : Bool) (below : σ) :
    ∃ reached : σ,
      (openLine marker line atLineStart ⟨.margin marker atLineStart, below⟩ =
          ⟨.ok (), ⟨.margin marker false, reached⟩⟩ ∧
        Sink.contents reached = Sink.contents below ++
          if atLineStart then Layer.lead marker line else []) ∨
      Sink.contents reached = Sink.contents below ∧
        ∃ error, openLine marker line atLineStart ⟨.margin marker atLineStart, below⟩ =
          ⟨.error error, ⟨.margin marker atLineStart, reached⟩⟩ := by
  cases atLineStart with
  | false => exact ⟨below, .inl ⟨rfl, (List.append_nil _).symm⟩⟩
  | true =>
      obtain ⟨reached, ⟨hcontents, hthrough⟩ | hfails⟩ :=
        (passes_passUnlessEmpty (Layer.lead marker line) (.margin marker true) below).andThen
          (become (.margin marker false))
      · exact ⟨reached, .inl ⟨hthrough, hcontents⟩⟩
      · exact ⟨reached, .inr hfails⟩

theorem writeByte_margin_cases (marker : Bytes) (byte : UInt8) (atLineStart : Bool) (below : σ) :
    ∃ reached : σ,
      (Writer.writeByte byte (⟨.margin marker atLineStart, below⟩ : Layered σ) =
          ⟨.ok (), ⟨.margin marker (byte == Bytes.newline), reached⟩⟩ ∧
        Sink.contents reached = Sink.contents below ++ Layer.marked marker atLineStart [byte]) ∨
      ∃ error still,
        Writer.writeByte byte (⟨.margin marker atLineStart, below⟩ : Layered σ) =
          ⟨.error error, ⟨.margin marker still, reached⟩⟩ ∧
        Sink.contents reached ++ Layer.marked marker still [byte] =
          Sink.contents below ++ Layer.marked marker atLineStart [byte] := by
  have hwrite : Writer.writeByte byte (⟨.margin marker atLineStart, below⟩ : Layered σ) =
      (openLine marker [byte] atLineStart).andThen
        ((passByte byte).andThen (become (.margin marker (byte == Bytes.newline))))
        ⟨.margin marker atLineStart, below⟩ := rfl
  rw [hwrite]
  obtain ⟨opened, ⟨hopen, hmarker⟩ | ⟨hcontents, error, hopen⟩⟩ :=
    openLine_cases marker [byte] atLineStart below
  · have hline : Sink.contents opened ++ [byte] =
        Sink.contents below ++ Layer.marked marker atLineStart [byte] := by
      rw [hmarker, List.append_assoc]
      rfl
    rw [Action.andThen_of_ok (congrArg Outcome.result hopen), hopen]
    obtain ⟨reached, ⟨hcontents, hthrough⟩ | ⟨hcontents, error, hfails⟩⟩ :=
      (passes_passByte byte (.margin marker false) opened).andThen
        (become (.margin marker (byte == Bytes.newline)))
    · exact ⟨reached, .inl ⟨hthrough, hcontents.trans hline⟩⟩
    · refine ⟨reached, .inr ⟨error, false, hfails, ?_⟩⟩
      rw [hcontents]
      exact hline
  · refine ⟨opened, .inr ⟨error, atLineStart, ?_, by rw [hcontents]⟩⟩
    rw [Action.andThen_of_error (congrArg Outcome.result hopen), hopen]

/-- However often a byte is tried, it arrives once, with its marker once before it. -/
theorem retried_writeByte {marker : Bytes} {byte : UInt8} {atLineStart : Bool} {below : σ}
    {final : Layered σ}
    (hretried : Action.Retried (Writer.writeByte byte) final ⟨.margin marker atLineStart, below⟩) :
    final.layer = .margin marker (byte == Bytes.newline) ∧
      Sink.contents final.below =
        Sink.contents below ++ Layer.marked marker atLineStart [byte] := by
  generalize hstart : (⟨.margin marker atLineStart, below⟩ : Layered σ) = start at hretried
  induction hretried generalizing atLineStart below with
  | through hthrough =>
      obtain ⟨reached, ⟨hwritten, hcontents⟩ | ⟨error, still, hfails, -⟩⟩ :=
        writeByte_margin_cases marker byte atLineStart below
      · rw [← hstart, hwritten] at hthrough
        cases hthrough
        exact ⟨rfl, hcontents⟩
      · rw [← hstart, hfails] at hthrough
        cases hthrough
  | again hfails _ ih =>
      obtain ⟨reached, ⟨hwritten, -⟩ | ⟨error, still, hstill, hcontents⟩⟩ :=
        writeByte_margin_cases marker byte atLineStart below
      · rw [← hstart, hwritten] at hfails
        cases hfails
      · rw [← hstart, hstill] at hfails
        cases hfails
        rw [← hcontents]
        exact ih rfl

end

end Layered

/-- Over a sink each call of which takes all of its bytes or fails and takes none, whichever calls
fail: a failed write to a trimming layer neither loses nor repeats a byte that is held back, and a
byte that is written again and again to a margin until it goes through leaves what it would have
left if no call had failed. -/
theorem Layered.failures_leave_no_trace {σ : Type} [Sink σ] [AllOrNothing σ] (below : σ) :
    (∀ (byte : UInt8) (pending : Nat) (chunk : Chunk) (error : WriteError) (after : Layered σ),
      Writer.put chunk (⟨.trim byte pending, below⟩ : Layered σ) = ⟨.error error, after⟩ →
        ∃ held, after.layer = .trim byte held ∧
          Sink.contents after.below ++ List.replicate held byte =
            Sink.contents below ++ List.replicate pending byte) ∧
    ∀ (marker : Bytes) (atLineStart : Bool) (byte : UInt8) (final : Layered σ),
      Action.Retried (Writer.writeByte byte) final ⟨.margin marker atLineStart, below⟩ →
        let buffer : Buffer := ⟨(Sink.contents below).toArray⟩
        ∃ once : Layered Buffer,
          Writer.writeByte byte (⟨.margin marker atLineStart, buffer⟩ : Layered Buffer) =
              ⟨.ok (), once⟩ ∧
            final.layer = once.layer ∧ Sink.contents final.below = Sink.contents once.below := by
  refine ⟨fun _ _ _ _ _ => put_trim_fails, ?_⟩
  intro marker atLineStart byte final hretried buffer
  obtain ⟨hlayer, hcontents⟩ := retried_writeByte hretried
  refine ⟨_, writeLineByte_eq marker byte atLineStart buffer, hlayer, ?_⟩
  rw [hcontents, Buffer.contents_fed]
  rfl

/-- The second of two calls fails: after a piece of the held back run in one case, and between the
marker and the byte in the other. -/
theorem Layered.second_call_fails :
    let below : Intermittent := ⟨[97], [false, true]⟩
    (∃ after, Writer.put (.byte 98) (⟨.trim 10 20, below⟩ : Layered Intermittent) =
        ⟨.error .full, after⟩ ∧ after.layer = .trim 10 4 ∧
        Sink.contents after.below ++ List.replicate 4 10 = [97] ++ List.replicate 20 10) ∧
      ∃ final, Action.Retried (Writer.writeByte 120) final
          (⟨.margin [62, 32] true, below⟩ : Layered Intermittent) ∧
        final.layer = .margin [62, 32] false ∧ Sink.contents final.below = [97, 62, 32, 120] := by
  intro below
  have hsafe := failures_leave_no_trace below
  constructor
  · have hfails : Writer.put (.byte 98) (⟨.trim 10 20, below⟩ : Layered Intermittent) =
        ⟨.error .full, ⟨.trim 10 4, ⟨[97] ++ List.replicate 16 10, []⟩⟩⟩ := rfl
    obtain ⟨held, hlayer, hkept⟩ := hsafe.1 10 20 _ _ _ hfails
    cases hlayer
    exact ⟨_, hfails, rfl, hkept⟩
  · have hfails : Writer.writeByte 120 (⟨.margin [62, 32] true, below⟩ : Layered Intermittent) =
        ⟨.error .full, ⟨.margin [62, 32] false, ⟨[97, 62, 32], []⟩⟩⟩ := rfl
    have hretried : Action.Retried (Writer.writeByte 120)
        (⟨.margin [62, 32] false, ⟨[97, 62, 32, 120], []⟩⟩ : Layered Intermittent)
        ⟨.margin [62, 32] true, below⟩ := .again hfails (.through rfl)
    obtain ⟨once, honce, hlayer, hcontents⟩ := hsafe.2 [62, 32] true 120 _ hretried
    cases honce
    exact ⟨_, hretried, hlayer, hcontents⟩

end CanonicalMarkdown.Output
