import CanonicalMarkdown.Text.Bytes

namespace CanonicalMarkdown.Output

inductive WriteError where
  | full
  | stalled
  | other (message : String)
  deriving DecidableEq, Repr

def WriteError.message : WriteError → String
  | .full => "sink full"
  | .stalled => "failed to write whole buffer"
  | .other message => message

/-! An action either goes through or fails; the state it leaves is kept in both cases. -/

structure Outcome (ε σ α : Type) where
  result : Except ε α
  state : σ

namespace Outcome

variable {ε σ α β : Type}

def failure (outcome : Outcome ε σ α) : Option ε :=
  match outcome.result with
  | .ok _ => none
  | .error error => some error

def map (change : α → β) (outcome : Outcome ε σ α) : Outcome ε σ β :=
  ⟨outcome.result.map change, outcome.state⟩

end Outcome

abbrev Action (ε σ : Type) (α : Type := Unit) := σ → Outcome ε σ α

namespace Action

variable {ε σ : Type}

def skip : Action ε σ := fun state => ⟨.ok (), state⟩

def fail (error : ε) : Action ε σ := fun state => ⟨.error error, state⟩

/-- Runs `second` only when `first` went through. -/
def andThen (first second : Action ε σ) : Action ε σ := fun state =>
  match first state with
  | ⟨.ok _, reached⟩ => second reached
  | ⟨.error error, reached⟩ => ⟨.error error, reached⟩

end Action

/-! A state that takes bytes, in bulk or singly. -/

class Writer (σ : Type) where
  /-- Either accepts all of the bytes and counts them, or fails. -/
  write : Bytes → Action WriteError σ Nat
  writeByte : UInt8 → Action WriteError σ := fun byte state =>
    (write [byte] state).map fun _ => ()

/-- What is handed to a writer by one call. -/
inductive Chunk where
  | bytes (data : Bytes)
  | text (text : String)
  | byte (byte : UInt8)
  deriving DecidableEq, Repr

namespace Chunk

instance : Coe Bytes Chunk := ⟨.bytes⟩

def data : Chunk → Bytes
  | .bytes content => content
  | .text content => Bytes.ofText content
  | .byte single => [single]

end Chunk

namespace Writer

variable {σ : Type} [Writer σ]

def writeText (text : String) : Action WriteError σ Nat := write (Bytes.ofText text)

def put : Chunk → Action WriteError σ (Option Nat)
  | .bytes data => fun state => (write data state).map some
  | .text content => fun state => (writeText content state).map some
  | .byte byte => fun state => (writeByte byte state).map fun _ => none

end Writer

/-- A writer at the bottom of a stack, whose accepted bytes can be looked at. -/
class Sink (σ : Type) extends Writer σ where
  contents : σ → Bytes

end CanonicalMarkdown.Output
