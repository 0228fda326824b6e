import CanonicalMarkdown.Proofs.Output.Comparison

namespace CanonicalMarkdown.Output

/-! A device that takes at least a byte by every call that is not interrupted, until it is full. -/

namespace Device

def refusal (stalls : Bool) : WriteError := if stalls then .stalled else .full

structure Serves (device : Device) (limit : Nat) (stalls : Bool) : Prop where
  chunk_pos : ∀ chunk, device.chunk = some chunk → 0 < chunk
  limit_eq : device.limit = some limit
  interrupt_ne : device.interrupt ≠ 1
  stalls_eq : device.stalls = stalls
  fits : (Sink.contents device).length ≤ limit

/-- Whether the next call is interrupted. -/
def Interrupts (device : Device) : Prop :=
  0 < device.interrupt ∧ (device.calls + 1) % device.interrupt = 0

/-- The device after a call by which it took `data`. -/
def called (device : Device) (data : Bytes) : Device :=
  { device with calls := device.calls + 1, taken := data.foldl Array.push device.taken }

@[simp] theorem contents_called (device : Device) (data : Bytes) :
    Sink.contents (device.called data) = Sink.contents device ++ data :=
  Buffer.contents_fed ⟨device.taken⟩ data

variable {device : Device} {limit : Nat} {stalls : Bool}

namespace Serves

theorem called (hserves : device.Serves limit stalls) {data : Bytes}
    (hdata : (Sink.contents device).length + data.length ≤ limit) :
    (device.called data).Serves limit stalls where
  chunk_pos := hserves.chunk_pos
  limit_eq := hserves.limit_eq
  interrupt_ne := hserves.interrupt_ne
  stalls_eq := hserves.stalls_eq
  fits := by rwa [contents_called, List.length_append]

/-- No two calls in a row are interrupted. -/
theorem not_interrupts_called (hserves : device.Serves limit stalls)
    (hinterrupts : device.Interrupts) (data : Bytes) : ¬ (device.called data).Interrupts := by
  rintro ⟨hpos, hnext⟩
  have hone := hserves.interrupt_ne
  simp only [Device.called] at hpos hnext
  rw [Nat.add_mod, hinterrupts.2, Nat.zero_add, Nat.mod_mod, Nat.mod_eq_of_lt (by omega)] at hnext
  exact Nat.one_ne_zero hnext

theorem isFull_iff (hserves : device.Serves limit stalls) :
    device.isFull = true ↔ (Sink.contents device).length = limit := by
  have hsize : device.taken.size = (Sink.contents device).length := Array.length_toList.symm
  have hfits := hserves.fits
  simp only [isFull, hserves.limit_eq, hsize, decide_eq_true_eq]
  omega

theorem exists_room (hserves : device.Serves limit stalls) (hfull : ¬ device.isFull = true)
    {wanted : Nat} (hwanted : 0 < wanted) :
    ∃ count, device.room wanted = count + 1 ∧ count < wanted ∧
      (Sink.contents device).length + (count + 1) ≤ limit := by
  have hsize : device.taken.size = (Sink.contents device).length := Array.length_toList.symm
  have hfits := hserves.fits
  rw [hserves.isFull_iff] at hfull
  have hroom : 0 < device.room wanted ∧ device.room wanted ≤ wanted ∧
      device.room wanted ≤ limit - (Sink.contents device).length := by
    simp only [room, hserves.limit_eq, hsize]
    cases hchunk : device.chunk with
    | none => simp only; omega
    | some chunk =>
        have hpos := hserves.chunk_pos chunk hchunk
        simp only
        omega
  exact ⟨device.room wanted - 1, by omega, by omega, by omega⟩

/-- Everything that a call may do. -/
theorem call_cases (hserves : device.Serves limit stalls) {data : Bytes} (hdata : data ≠ []) :
    (device.Interrupts ∧ device.call data = (.interrupted, device.called [])) ∨
    ((Sink.contents device).length = limit ∧
      device.call data = (if stalls then .took 0 else .refused, device.called [])) ∨
    ∃ count, count < data.length ∧ (Sink.contents device).length + (count + 1) ≤ limit ∧
      device.call data = (.took (count + 1), device.called (data.take (count + 1))) := by
  by_cases hinterrupts : device.Interrupts
  · exact .inl ⟨hinterrupts, if_pos hinterrupts⟩
  · have hcall : device.call data =
        if device.isFull = true ∧ (!data.isEmpty) = true then
          (if device.stalls then .took 0 else .refused, device.called [])
        else
          (.took (device.room data.length),
            device.called (data.take (device.room data.length))) := if_neg hinterrupts
    by_cases hfull : device.isFull = true
    · refine .inr (.inl ⟨hserves.isFull_iff.mp hfull, ?_⟩)
      rw [hcall, if_pos ⟨hfull, by simpa using hdata⟩, hserves.stalls_eq]
    · obtain ⟨count, hroom, hcount, hlimit⟩ :=
        hserves.exists_room hfull (List.length_pos_iff.mpr hdata)
      refine .inr (.inr ⟨count, hcount, hlimit, ?_⟩)
      rw [hcall, if_neg fun hboth => hfull hboth.1, hroom]

end Serves

/-- A write goes through if all of it fits, and otherwise fills the device. Two attempts for each
byte are enough, one less if the next call is not interrupted. -/
theorem writeWithin_cases {attempts : Nat} {data : Bytes} (hserves : device.Serves limit stalls)
    (hattempts : 2 * data.length ≤ attempts ∨
      2 * data.length ≤ attempts + 1 ∧ ¬ device.Interrupts) :
    ∃ after,
      (writeWithin attempts data device = ⟨.ok (), after⟩ ∧ after.Serves limit stalls ∧
        Sink.contents after = Sink.contents device ++ data) ∨
      (writeWithin attempts data device = ⟨.error (refusal stalls), after⟩ ∧
        limit < (Sink.contents device ++ data).length ∧
        Sink.contents after = (Sink.contents device ++ data).take limit) := by
  induction attempts generalizing data device with
  | zero =>
      cases data with
      | nil => exact ⟨device, .inl ⟨rfl, hserves, by simp⟩⟩
      | cons byte rest =>
          simp only [List.length_cons] at hattempts
          omega
  | succ attempts ih =>
      cases data with
      | nil => exact ⟨device, .inl ⟨rfl, hserves, by simp⟩⟩
      | cons byte rest =>
          have hnone : (Sink.contents device).length + ([] : Bytes).length ≤ limit := hserves.fits
          rcases hserves.call_cases (List.cons_ne_nil byte rest) with
            ⟨hinterrupts, hcall⟩ | ⟨hfull, hcall⟩ | ⟨count, hcount, hlimit, hcall⟩
          · have hnext := hserves.not_interrupts_called hinterrupts []
            have hleft : 2 * (byte :: rest).length ≤ attempts + 1 :=
              hattempts.resolve_right fun hboth => hboth.2 hinterrupts
            obtain ⟨after, hafter⟩ := ih (hserves.called hnone) (.inr ⟨hleft, hnext⟩)
            refine ⟨after, ?_⟩
            rw [contents_called, List.append_nil] at hafter
            simp only [writeWithin, hcall]
            exact hafter
          · refine ⟨device.called [], .inr ⟨?_, ?_, ?_⟩⟩
            · cases stalls <;> simp [writeWithin, hcall, refusal]
            · rw [List.length_append, hfull]
              simp
            · simp [← hfull]
          · have htaken : (Sink.contents device).length +
                ((byte :: rest).take (count + 1)).length ≤ limit := by
              rwa [List.length_take_of_le hcount]
            have hleft : 2 * (rest.drop count).length ≤ attempts := by
              simp only [List.length_cons, List.length_drop] at hattempts hcount ⊢
              omega
            obtain ⟨after, hafter⟩ := ih (hserves.called htaken) (.inl hleft)
            refine ⟨after, ?_⟩
            rw [contents_called, List.append_assoc, List.take_succ_cons, List.cons_append,
              List.take_append_drop] at hafter
            simp only [writeWithin, hcall]
            exact hafter

/-! A device beside a buffer. -/

def beside (limit : Nat) (stalls : Bool) : Comparison limit (refusal stalls) Device Buffer where
  InStep device buffer := device.Serves limit stalls ∧ Sink.contents device = Sink.contents buffer
  taken := Sink.contents
  ideal := Sink.contents
  fits hstep := hstep.2 ▸ hstep.1.fits

theorem follows_write (data : Bytes) :
    (beside limit stalls).Follows (Writer.write data) (Writer.write data) where
  through _ := ⟨data.length, rfl⟩
  grows buffer := by
    change Sink.contents buffer <+: Sink.contents (Writer.fed buffer data)
    rw [Buffer.contents_fed]
    exact List.prefix_append _ _
  agree device buffer hstep := by
    obtain ⟨hserves, hcontents⟩ := hstep
    have hbuffer : Sink.contents (Writer.write data buffer).state =
        Sink.contents device ++ data := by
      rw [hcontents]
      exact Buffer.contents_fed buffer data
    have hdevice : Writer.write data device =
        (writeWithin (2 * data.length) data device).map fun _ => data.length := rfl
    obtain ⟨after, ⟨hwrite, hafter, htaken⟩ | ⟨hwrite, hlimit, htaken⟩⟩ :=
      writeWithin_cases hserves (.inl (Nat.le_refl (2 * data.length)))
    · rw [hdevice, hwrite]
      exact .within rfl ⟨hafter, htaken.trans hbuffer.symm⟩
    · rw [← hbuffer] at hlimit htaken
      rw [hdevice, hwrite]
      exact .beyond hlimit rfl htaken

theorem covers_beside (limit : Nat) (stalls : Bool) : (beside limit stalls).Covers where
  write := follows_write
  writeByte byte := (follows_write [byte]).map fun _ => ()

end Device

namespace Tower

section

variable {σ : Type} [Sink σ]

/-- What has come to the bottom. -/
def sunk (tower : Tower σ) : Bytes := Sink.contents tower.sink

/-- What an operation reports, with what the layers hold back after it and what has come to the
bottom. -/
def shown (outcome : Outcome WriteError (Tower σ) (Option Nat)) :
    Except WriteError (Option Nat) × List Layer × Bytes :=
  (outcome.result, outcome.state.layers, outcome.state.sunk)

end

/-- The outcomes of operations over a writer that takes `limit` bytes, beside the ideal ones. The
first operation to fail is the first that goes beyond the limit, nothing tells the two apart before
it, and at it the leading bytes have been taken. -/
structure Leading (limit : Nat) (refusal : WriteError)
    (outcomes : List (Outcome WriteError (Tower Device) (Option Nat)))
    (ideals : List (Outcome WriteError (Tower Buffer) (Option Nat))) : Prop where
  first_failure : outcomes.findIdx? (fun outcome => outcome.failure.isSome) =
    ideals.findIdx? (fun ideal => limit < ideal.state.sunk.length)
  before_failure : (outcomes.takeWhile (fun outcome => outcome.failure.isNone)).map shown =
    (ideals.takeWhile (fun ideal => ideal.state.sunk.length ≤ limit)).map shown
  at_failure :
    (outcomes.find? (fun outcome => outcome.failure.isSome)).map
        (fun outcome => (outcome.result, outcome.state.sunk)) =
      (ideals.find? (fun ideal => limit < ideal.state.sunk.length)).map
        (fun ideal => (.error refusal, ideal.state.sunk.take limit))

theorem leading_performAll {limit : Nat} {stalls : Bool} (operations : List Operation)
    {tower : Tower Device} {twin : Tower Buffer}
    (hstep : (Device.beside limit stalls).towers.InStep tower twin) :
    Leading limit (Device.refusal stalls) (tower.performAll operations)
      (twin.performAll operations) := by
  induction operations generalizing tower twin with
  | nil => exact ⟨rfl, rfl, rfl⟩
  | cons operation rest ih =>
      have hfollows := (Device.covers_beside limit stalls).perform operation
      obtain ⟨value, hvalue⟩ := hfollows.through twin
      simp only [performAll]
      cases hfollows.agree tower twin hstep with
      | within hresult hreached =>
          have hfits : (twin.perform operation).state.sunk.length ≤ limit :=
            Comparison.fits _ hreached
          have hthrough : (tower.perform operation).failure = none := by
            rw [Outcome.failure, hresult, hvalue]
          have hshown : shown (tower.perform operation) = shown (twin.perform operation) := by
            rw [shown, shown, hresult, hreached.layers, sunk, hreached.sink.2, sunk]
          obtain ⟨hfirst, hbefore, hat⟩ := ih hreached
          constructor
          · simp [List.findIdx?_cons, hthrough, Nat.not_lt_of_le hfits, hfirst]
          · simp [hthrough, hfits, hshown, hbefore]
          · simp [hthrough, Nat.not_lt_of_le hfits, hat]
      | beyond hlimit hresult htaken =>
          have hbeyond : limit < (twin.perform operation).state.sunk.length := hlimit
          have hfails : (tower.perform operation).failure = some (Device.refusal stalls) := by
            rw [Outcome.failure, hresult]
          have hleading : (tower.perform operation).state.sunk =
              (twin.perform operation).state.sunk.take limit := htaken
          constructor
          · simp [List.findIdx?_cons, hfails, hbeyond]
          · simp [hfails, Nat.not_le_of_lt hbeyond]
          · simp [hfails, hbeyond, hresult, hleading]

/-- A device that is full after `limit` bytes receives the leading bytes of what a buffer would,
whatever layers come and go above it and however its calls are cut short or interrupted. -/
theorem device_takes_leading_bytes (chunk : Option Nat) (limit interrupt : Nat) (stalls : Bool)
    (hchunk : ∀ most, chunk = some most → 1 ≤ most) (hinterrupt : interrupt ≠ 1)
    (operations : List Operation) :
    let device : Device := { chunk, limit := some limit, interrupt, stalls }
    Leading limit (Device.refusal stalls) ((ofSink device).performAll operations)
      ((ofSink Buffer.empty).performAll operations) := by
  intro device
  have hserves : device.Serves limit stalls :=
    { chunk_pos := hchunk
      limit_eq := rfl
      interrupt_ne := hinterrupt
      stalls_eq := rfl
      fits := Nat.zero_le limit }
  exact leading_performAll operations (Comparison.inStep_ofSink _ ⟨hserves, rfl⟩)

/-- A device that takes one byte by every other call is filled by the marker of the empty line that
a held back newline turns into. -/
theorem device_filled_by_released_newlines :
    let device : Device := { chunk := some 1, limit := some 5, interrupt := 2 }
    let operations : List Operation := [.push (.margin [62, 32] true), .push (.trim 10 0),
      .write (.bytes [97, 10, 10]), .write (.byte 98), .pop, .write (.text "c")]
    let outcomes := (ofSink device).performAll operations
    outcomes.findIdx? (fun outcome => outcome.failure.isSome) = some 3 ∧
      (outcomes.takeWhile (fun outcome => outcome.failure.isNone)).map shown =
        [(.ok none, [.margin [62, 32] true], []),
          (.ok none, [.margin [62, 32] true, .trim 10 0], []),
          (.ok (some 3), [.margin [62, 32] false, .trim 10 2], [62, 32, 97])] ∧
      (outcomes.find? (fun outcome => outcome.failure.isSome)).map
          (fun outcome => (outcome.result, outcome.state.sunk)) =
        some (.error .full, [62, 32, 97, 10, 62]) := by
  intro device operations outcomes
  have hchunk : ∀ most, some 1 = some most → 1 ≤ most := by simp
  obtain ⟨hfirst, hbefore, hat⟩ :=
    device_takes_leading_bytes (some 1) 5 2 false hchunk (by decide) operations
  exact ⟨hfirst.trans rfl, hbefore.trans rfl, hat.trans rfl⟩

end Tower

end CanonicalMarkdown.Output
