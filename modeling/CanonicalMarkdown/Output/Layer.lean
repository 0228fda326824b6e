import CanonicalMarkdown.Output.Writer

namespace CanonicalMarkdown.Output

/-! A layer stands on top of a writer and changes what passes through it. -/

inductive Layer where
  /-- Puts `marker` before each line, when the first byte of the line arrives. Before an empty line
  the trailing white space of the marker is left out. -/
  | margin (marker : Bytes) (atLineStart : Bool)
  /-- Holds back the run of `byte` at the end, which is passed on once another byte follows it. -/
  | trim (byte : UInt8) (pending : Nat)
  deriving DecidableEq, Repr

namespace Layer

/-- A margin of `width` spaces that starts with the second line. -/
def indent (width : Nat) : Layer :=
  .margin (List.replicate width Bytes.space) false

def atLineStart : Layer → Layer
  | .margin marker _ => .margin marker true
  | .trim byte pending => .trim byte pending

def pending? : Layer → Option Nat
  | .margin _ _ => none
  | .trim _ pending => some pending

/-- What a margin writes before `line`. -/
def lead (marker line : Bytes) : Bytes :=
  if line.head? = some Bytes.newline then
    marker.dropTailWhile Bytes.isBlank
  else
    marker

end Layer

structure Layered (σ : Type) where
  layer : Layer
  below : σ
  deriving DecidableEq, Repr

namespace Layered

variable {σ : Type}

def become (layer : Layer) : Action WriteError (Layered σ) := fun writer =>
  ⟨.ok (), { writer with layer := layer }⟩

/-- Acts on the writer below; what that reports is dropped. -/
def onBelow {α : Type} (action : Action WriteError σ α) : Action WriteError (Layered σ) :=
  fun writer =>
    let outcome := action writer.below
    ⟨outcome.result.map fun _ => (), { writer with below := outcome.state }⟩

variable [Writer σ]

def pass (data : Bytes) : Action WriteError (Layered σ) := onBelow (Writer.write data)

def passByte (byte : UInt8) : Action WriteError (Layered σ) := onBelow (Writer.writeByte byte)

def passUnlessEmpty (data : Bytes) : Action WriteError (Layered σ) :=
  if data.isEmpty then Action.skip else pass data

/-! A margin passes on one line at a time. Its marker counts as written as soon as it was accepted,
so a line that fails after it is not marked again. -/

def openLine (marker line : Bytes) (atLineStart : Bool) : Action WriteError (Layered σ) :=
  if atLineStart then
    (passUnlessEmpty (Layer.lead marker line)).andThen (become (.margin marker false))
  else
    Action.skip

def writeLine (marker line : Bytes) (atLineStart : Bool) : Action WriteError (Layered σ) :=
  (openLine marker line atLineStart).andThen
    ((pass line).andThen (become (.margin marker line.endsLine)))

def writeLines (marker : Bytes) (atLineStart : Bool) :
    List Bytes → Action WriteError (Layered σ)
  | [] => Action.skip
  | line :: rest =>
      (writeLine marker line atLineStart).andThen (writeLines marker line.endsLine rest)

/-- A single byte is a line, or a part of one. -/
def writeLineByte (marker : Bytes) (byte : UInt8) (atLineStart : Bool) :
    Action WriteError (Layered σ) :=
  (openLine marker [byte] atLineStart).andThen
    ((passByte byte).andThen (become (.margin marker (byte == Bytes.newline))))

/-! A held back run is passed on in pieces of sixteen bytes, each counted off once accepted. -/

def pieceSize : Nat := 16

def release (byte : UInt8) (rest : Nat) : (pieces : Nat) → Action WriteError (Layered σ)
  | 0 =>
      (passUnlessEmpty (List.replicate rest byte)).andThen (become (.trim byte 0))
  | pieces + 1 =>
      (pass (List.replicate pieceSize byte)).andThen
        ((become (.trim byte (pieceSize * pieces + rest))).andThen (release byte rest pieces))

def writeTrimmed (byte : UInt8) (pending : Nat) (data : Bytes) :
    Action WriteError (Layered σ) :=
  let body := data.dropTailWhile (· == byte)
  let held := data.length - body.length
  if body.isEmpty then
    become (.trim byte (pending + held))
  else
    (release byte (pending % pieceSize) (pending / pieceSize)).andThen
      ((pass body).andThen (become (.trim byte held)))

/-- A single byte is held back or passed on. -/
def writeTrimmedByte (byte : UInt8) (pending : Nat) (next : UInt8) :
    Action WriteError (Layered σ) :=
  if next = byte then
    become (.trim byte (pending + 1))
  else
    (release byte (pending % pieceSize) (pending / pieceSize)).andThen (passByte next)

instance : Writer (Layered σ) where
  write data := fun writer =>
    let outcome := match writer.layer with
      | .margin marker atLineStart => writeLines marker atLineStart data.lines writer
      | .trim byte pending => writeTrimmed byte pending data writer
    outcome.map fun _ => data.length
  writeByte byte := fun writer =>
    match writer.layer with
    | .margin marker atLineStart => writeLineByte marker byte atLineStart writer
    | .trim held pending => writeTrimmedByte held pending byte writer

end Layered

end CanonicalMarkdown.Output
