import CanonicalMarkdown.Proofs.Output.Layer

namespace CanonicalMarkdown.Output

namespace Action

variable {ε σ : Type} {first : Action ε σ} {state : σ}

theorem andThen_of_ok {value : Unit} (hfirst : (first state).result = .ok value)
    (second : Action ε σ) : first.andThen second state = second (first state).state := by
  cases h : first state with
  | mk result reached =>
      obtain rfl : result = .ok value := by rw [← hfirst, h]
      simp [andThen, h]

theorem andThen_of_error {error : ε} (hfirst : (first state).result = .error error)
    (second : Action ε σ) :
    first.andThen second state = ⟨.error error, (first state).state⟩ := by
  cases h : first state with
  | mk result reached =>
      obtain rfl : result = .error error := by rw [← hfirst, h]
      simp [andThen, h]

end Action

/-! What a layered writer does is chosen by its layer alone. -/

namespace Layered

variable {σ : Type} [Writer σ]

def writeBy (data : Bytes) : Layer → Action WriteError (Layered σ)
  | .margin marker atLineStart => writeLines marker atLineStart data.lines
  | .trim byte pending => writeTrimmed byte pending data

def writeByteBy (byte : UInt8) : Layer → Action WriteError (Layered σ)
  | .margin marker atLineStart => writeLineByte marker byte atLineStart
  | .trim held pending => writeTrimmedByte held pending byte

theorem write_eq_writeBy (data : Bytes) :
    (Writer.write data : Action WriteError (Layered σ) Nat) =
      fun writer => (writeBy data writer.layer writer).map fun _ => data.length := by
  funext ⟨layer, below⟩
  cases layer <;> rfl

theorem writeByte_eq_writeByteBy (byte : UInt8) :
    (Writer.writeByte byte : Action WriteError (Layered σ)) =
      fun writer => writeByteBy byte writer.layer writer := by
  funext ⟨layer, below⟩
  cases layer <;> rfl

end Layered

/-! A writer with a bound beside an ideal one without: both are handed the same bytes, and what
has come to the bottom of each is compared. -/

structure Comparison (limit : Nat) (refusal : WriteError) (σ τ : Type) where
  InStep : σ → τ → Prop
  taken : σ → Bytes
  ideal : τ → Bytes
  fits : ∀ {state twin}, InStep state twin → (ideal twin).length ≤ limit

namespace Comparison

variable {limit : Nat} {refusal : WriteError} {σ τ : Type}
  (comparison : Comparison limit refusal σ τ)

/-- Within the limit both outcomes are the same. Beyond it the bounded writer refuses, and has taken
the leading bytes of what came to the ideal one. -/
inductive Agree {α : Type} (outcome : Outcome WriteError σ α) (ideal : Outcome WriteError τ α) :
    Prop
  | within (hresult : outcome.result = ideal.result)
      (hstep : comparison.InStep outcome.state ideal.state)
  | beyond (hlimit : limit < (comparison.ideal ideal.state).length)
      (hresult : outcome.result = .error refusal)
      (htaken : comparison.taken outcome.state = (comparison.ideal ideal.state).take limit)

/-- The bounded writer goes along with the ideal one, which never fails and never takes back what it
wrote. -/
structure Follows {α : Type} (action : Action WriteError σ α) (ideal : Action WriteError τ α) :
    Prop where
  through : ∀ twin, ∃ value, (ideal twin).result = .ok value
  grows : ∀ twin, comparison.ideal twin <+: comparison.ideal (ideal twin).state
  agree : ∀ state twin, comparison.InStep state twin → comparison.Agree (action state) (ideal twin)

namespace Follows

variable {comparison}

theorem skip : comparison.Follows Action.skip Action.skip where
  through _ := ⟨(), rfl⟩
  grows _ := List.prefix_rfl
  agree _ _ hstep := .within rfl hstep

theorem andThen {first second : Action WriteError σ} {ideal other : Action WriteError τ}
    (hfirst : comparison.Follows first ideal) (hsecond : comparison.Follows second other) :
    comparison.Follows (first.andThen second) (ideal.andThen other) where
  through twin := by
    obtain ⟨value, hvalue⟩ := hfirst.through twin
    rw [Action.andThen_of_ok hvalue]
    exact hsecond.through _
  grows twin := by
    obtain ⟨value, hvalue⟩ := hfirst.through twin
    rw [Action.andThen_of_ok hvalue]
    exact (hfirst.grows twin).trans (hsecond.grows _)
  agree state twin hstep := by
    obtain ⟨value, hvalue⟩ := hfirst.through twin
    rw [Action.andThen_of_ok hvalue]
    cases hfirst.agree state twin hstep with
    | within hresult hreached =>
        rw [Action.andThen_of_ok (hresult.trans hvalue)]
        exact hsecond.agree _ _ hreached
    | beyond hlimit hresult htaken =>
        -- What the ideal writer does next comes after the bytes that count.
        obtain ⟨more, hmore⟩ := hsecond.grows (ideal twin).state
        rw [Action.andThen_of_error hresult]
        refine .beyond ?_ rfl ?_
        · rw [← hmore, List.length_append]
          exact Nat.lt_add_right _ hlimit
        · rw [htaken, ← hmore, List.take_append_of_le_length (Nat.le_of_lt hlimit)]

theorem map {α β : Type} {action : Action WriteError σ α} {ideal : Action WriteError τ α}
    (hfollows : comparison.Follows action ideal) (change : α → β) :
    comparison.Follows (fun state => (action state).map change)
      (fun twin => (ideal twin).map change) where
  through twin := by
    obtain ⟨value, hvalue⟩ := hfollows.through twin
    exact ⟨change value, by rw [Outcome.map, hvalue]; rfl⟩
  grows := hfollows.grows
  agree state twin hstep := by
    cases hfollows.agree state twin hstep with
    | within hresult hreached => exact .within (by rw [Outcome.map, hresult]; rfl) hreached
    | beyond hlimit hresult htaken =>
        exact .beyond hlimit (by rw [Outcome.map, hresult]; rfl) htaken

end Follows

/-- Every call of the bounded writer follows the same call of the ideal one. -/
structure Covers [Writer σ] [Writer τ] : Prop where
  write : ∀ data, comparison.Follows (Writer.write data) (Writer.write data)
  writeByte : ∀ byte, comparison.Follows (Writer.writeByte byte) (Writer.writeByte byte)

theorem Covers.put [Writer σ] [Writer τ] {comparison : Comparison limit refusal σ τ}
    (hcovers : comparison.Covers) (chunk : Chunk) :
    comparison.Follows (Writer.put chunk) (Writer.put chunk) := by
  cases chunk with
  | bytes data => exact (hcovers.write data).map some
  | text content => exact (hcovers.write (Bytes.ofText content)).map some
  | byte single => exact (hcovers.writeByte single).map fun _ => none

/-! The same layer on both writers. -/

def layered : Comparison limit refusal (Layered σ) (Layered τ) where
  InStep writer twin := writer.layer = twin.layer ∧ comparison.InStep writer.below twin.below
  taken writer := comparison.taken writer.below
  ideal twin := comparison.ideal twin.below
  fits hstep := comparison.fits hstep.2

namespace Follows

variable {comparison}

theorem become (layer : Layer) :
    comparison.layered.Follows (Layered.become layer) (Layered.become layer) where
  through _ := ⟨(), rfl⟩
  grows _ := List.prefix_rfl
  agree _ _ hstep := .within rfl ⟨rfl, hstep.2⟩

theorem onBelow {α : Type} {action : Action WriteError σ α} {ideal : Action WriteError τ α}
    (hfollows : comparison.Follows action ideal) :
    comparison.layered.Follows (Layered.onBelow action) (Layered.onBelow ideal) where
  through twin := by
    obtain ⟨value, hvalue⟩ := hfollows.through twin.below
    exact ⟨(), by simp [Layered.onBelow, hvalue, Except.map]⟩
  grows twin := hfollows.grows twin.below
  agree writer twin hstep := by
    cases hfollows.agree _ _ hstep.2 with
    | within hresult hreached =>
        exact .within (by simp [Layered.onBelow, hresult]) ⟨hstep.1, hreached⟩
    | beyond hlimit hresult htaken =>
        exact .beyond hlimit (by simp [Layered.onBelow, hresult, Except.map]) htaken

/-- Both writers do what their layer says, and have the same one. -/
theorem ofLayer {α : Type} {action : Layer → Action WriteError (Layered σ) α}
    {ideal : Layer → Action WriteError (Layered τ) α}
    (hfollows : ∀ layer, comparison.layered.Follows (action layer) (ideal layer)) :
    comparison.layered.Follows (fun writer => action writer.layer writer)
      (fun twin => ideal twin.layer twin) where
  through twin := (hfollows twin.layer).through twin
  grows twin := (hfollows twin.layer).grows twin
  agree writer twin hstep := by
    rw [hstep.1]
    exact (hfollows twin.layer).agree writer twin hstep

end Follows

section

variable {comparison} [Writer σ] [Writer τ] (hcovers : comparison.Covers)
include hcovers

theorem follows_pass (data : Bytes) :
    comparison.layered.Follows (Layered.pass data) (Layered.pass data) :=
  .onBelow (hcovers.write data)

theorem follows_passByte (byte : UInt8) :
    comparison.layered.Follows (Layered.passByte byte) (Layered.passByte byte) :=
  .onBelow (hcovers.writeByte byte)

theorem follows_passUnlessEmpty (data : Bytes) :
    comparison.layered.Follows (Layered.passUnlessEmpty data) (Layered.passUnlessEmpty data) := by
  unfold Layered.passUnlessEmpty
  split
  · exact .skip
  · exact follows_pass hcovers data

theorem follows_openLine (marker line : Bytes) (atLineStart : Bool) :
    comparison.layered.Follows (Layered.openLine marker line atLineStart)
      (Layered.openLine marker line atLineStart) := by
  unfold Layered.openLine
  split
  · exact (follows_passUnlessEmpty hcovers _).andThen (.become _)
  · exact .skip

theorem follows_writeLines (marker : Bytes) (atLineStart : Bool) (lines : List Bytes) :
    comparison.layered.Follows (Layered.writeLines marker atLineStart lines)
      (Layered.writeLines marker atLineStart lines) := by
  induction lines generalizing atLineStart with
  | nil => exact .skip
  | cons line rest ih =>
      have hline := (follows_openLine hcovers marker line atLineStart).andThen
        ((follows_pass hcovers line).andThen (.become (.margin marker line.endsLine)))
      exact hline.andThen (ih line.endsLine)

theorem follows_writeLineByte (marker : Bytes) (byte : UInt8) (atLineStart : Bool) :
    comparison.layered.Follows (Layered.writeLineByte marker byte atLineStart)
      (Layered.writeLineByte marker byte atLineStart) :=
  (follows_openLine hcovers marker [byte] atLineStart).andThen
    ((follows_passByte hcovers byte).andThen (.become _))

theorem follows_release (byte : UInt8) (rest pieces : Nat) :
    comparison.layered.Follows (Layered.release byte rest pieces)
      (Layered.release byte rest pieces) := by
  induction pieces with
  | zero => exact (follows_passUnlessEmpty hcovers _).andThen (.become _)
  | succ pieces ih => exact (follows_pass hcovers _).andThen ((Follows.become _).andThen ih)

theorem follows_writeTrimmed (byte : UInt8) (pending : Nat) (data : Bytes) :
    comparison.layered.Follows (Layered.writeTrimmed byte pending data)
      (Layered.writeTrimmed byte pending data) := by
  simp only [Layered.writeTrimmed]
  split
  · exact .become _
  · exact (follows_release hcovers byte _ _).andThen
      ((follows_pass hcovers _).andThen (.become _))

theorem follows_writeTrimmedByte (byte : UInt8) (pending : Nat) (next : UInt8) :
    comparison.layered.Follows (Layered.writeTrimmedByte byte pending next)
      (Layered.writeTrimmedByte byte pending next) := by
  unfold Layered.writeTrimmedByte
  split
  · exact .become _
  · exact (follows_release hcovers byte _ _).andThen (follows_passByte hcovers next)

/-- A layer asks nothing of the writer below but to be written to, so that it neither fails early
nor writes anything after a failure. -/
theorem Covers.layered : comparison.layered.Covers where
  write data := by
    rw [Layered.write_eq_writeBy, Layered.write_eq_writeBy]
    refine (Follows.ofLayer fun layer => ?_).map fun _ => data.length
    cases layer with
    | margin marker atLineStart => exact follows_writeLines hcovers marker atLineStart data.lines
    | trim byte pending => exact follows_writeTrimmed hcovers byte pending data
  writeByte byte := by
    rw [Layered.writeByte_eq_writeByteBy, Layered.writeByte_eq_writeByteBy]
    refine Follows.ofLayer fun layer => ?_
    cases layer with
    | margin marker atLineStart => exact follows_writeLineByte hcovers marker byte atLineStart
    | trim held pending => exact follows_writeTrimmedByte hcovers held pending byte

end

/-! Stacks and towers of the same layers. -/

def stacked : (depth : Nat) → Comparison limit refusal (Stack σ depth) (Stack τ depth)
  | 0 => comparison
  | depth + 1 => (stacked depth).layered

theorem Covers.stacked [Writer σ] [Writer τ] {comparison : Comparison limit refusal σ τ}
    (hcovers : comparison.Covers) : (depth : Nat) → (comparison.stacked depth).Covers
  | 0 => hcovers
  | depth + 1 => (hcovers.stacked depth).layered

section

variable {comparison} {depth : Nat}

theorem taken_stacked (stack : Stack σ depth) :
    (comparison.stacked depth).taken stack = comparison.taken (Stack.bottom depth stack) := by
  induction depth with
  | zero => rfl
  | succ depth ih => exact ih stack.below

theorem ideal_stacked (twin : Stack τ depth) :
    (comparison.stacked depth).ideal twin = comparison.ideal (Stack.bottom depth twin) := by
  induction depth with
  | zero => rfl
  | succ depth ih => exact ih twin.below

theorem inStep_bottom {stack : Stack σ depth} {twin : Stack τ depth}
    (hstep : (comparison.stacked depth).InStep stack twin) :
    comparison.InStep (Stack.bottom depth stack) (Stack.bottom depth twin) := by
  induction depth with
  | zero => exact hstep
  | succ depth ih => exact ih hstep.2

theorem layers_eq_of_inStep {stack : Stack σ depth} {twin : Stack τ depth}
    (hstep : (comparison.stacked depth).InStep stack twin) :
    Stack.layers depth stack = Stack.layers depth twin := by
  induction depth with
  | zero => rfl
  | succ depth ih => rw [Stack.layers, Stack.layers, ih hstep.2, hstep.1]

end

inductive TowersInStep : Tower σ → Tower τ → Prop
  | mk {depth : Nat} {stack : Stack σ depth} {twin : Stack τ depth} :
      (comparison.stacked depth).InStep stack twin → TowersInStep ⟨depth, stack⟩ ⟨depth, twin⟩

namespace TowersInStep

variable {comparison} {tower : Tower σ} {twin : Tower τ}

theorem sink (hstep : comparison.TowersInStep tower twin) :
    comparison.InStep tower.sink twin.sink := by
  obtain ⟨hstep⟩ := hstep
  exact inStep_bottom hstep

theorem layers (hstep : comparison.TowersInStep tower twin) : tower.layers = twin.layers := by
  obtain ⟨hstep⟩ := hstep
  exact layers_eq_of_inStep hstep

end TowersInStep

def towers : Comparison limit refusal (Tower σ) (Tower τ) where
  InStep := comparison.TowersInStep
  taken tower := comparison.taken tower.sink
  ideal twin := comparison.ideal twin.sink
  fits hstep := comparison.fits hstep.sink

theorem inStep_ofSink {state : σ} {twin : τ} (hstep : comparison.InStep state twin) :
    comparison.towers.InStep (Tower.ofSink state) (Tower.ofSink twin) := by
  change comparison.TowersInStep ⟨0, state⟩ ⟨0, twin⟩
  exact .mk hstep

theorem Covers.perform [Writer σ] [Writer τ] {comparison : Comparison limit refusal σ τ}
    (hcovers : comparison.Covers) (operation : Operation) :
    comparison.towers.Follows (Tower.perform operation) (Tower.perform operation) := by
  cases operation with
  | push layer =>
      refine ⟨fun _ => ⟨none, rfl⟩, fun _ => List.prefix_rfl, ?_⟩
      rintro _ _ ⟨hstep⟩
      exact .within rfl (.mk ⟨rfl, hstep⟩)
  | pop =>
      refine ⟨fun _ => ⟨none, rfl⟩, ?_, ?_⟩
      · rintro ⟨_ | depth, twin⟩ <;> exact List.prefix_rfl
      · rintro ⟨depth, stack⟩ _ ⟨hstep⟩
        cases depth with
        | zero => exact .within rfl (.mk hstep)
        | succ depth => exact .within rfl (.mk hstep.2)
  | write chunk =>
      have hput (depth : Nat) := (hcovers.stacked depth).put chunk
      refine ⟨fun twin => (hput twin.depth).through twin.stack, ?_, ?_⟩
      · rintro ⟨depth, twin⟩
        have hgrows := (hput depth).grows twin
        rwa [ideal_stacked, ideal_stacked] at hgrows
      · rintro _ _ ⟨hstep⟩
        cases (hput _).agree _ _ hstep with
        | within hresult hreached => exact .within hresult (.mk hreached)
        | beyond hlimit hresult htaken =>
            rw [ideal_stacked] at hlimit htaken
            rw [taken_stacked] at htaken
            exact .beyond hlimit hresult htaken

end Comparison

end CanonicalMarkdown.Output
