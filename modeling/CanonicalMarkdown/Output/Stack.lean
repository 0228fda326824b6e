import CanonicalMarkdown.Output.Layer

namespace CanonicalMarkdown.Output

/-! Layers on layers, down to a sink. -/

def Stack (σ : Type) : (depth : Nat) → Type
  | 0 => σ
  | depth + 1 => Layered (Stack σ depth)

namespace Stack

variable {σ : Type}

@[reducible] def writer [Writer σ] : (depth : Nat) → Writer (Stack σ depth)
  | 0 => inferInstanceAs (Writer σ)
  | depth + 1 =>
      have : Writer (Stack σ depth) := writer depth
      inferInstanceAs (Writer (Layered (Stack σ depth)))

instance [Writer σ] (depth : Nat) : Writer (Stack σ depth) := writer depth

def bottom : (depth : Nat) → Stack σ depth → σ
  | 0, sink => sink
  | depth + 1, stack => bottom depth stack.below

/-- The layers from the bottom up. -/
def layers : (depth : Nat) → Stack σ depth → List Layer
  | 0, _ => []
  | depth + 1, stack => layers depth stack.below ++ [stack.layer]

end Stack

/-! A tower is a stack of any depth, worked on by its top. -/

structure Tower (σ : Type) where
  depth : Nat
  stack : Stack σ depth

inductive Operation where
  | push (layer : Layer)
  | pop
  | write (chunk : Chunk)
  deriving DecidableEq, Repr

namespace Tower

variable {σ : Type}

def ofSink (sink : σ) : Tower σ := ⟨0, sink⟩

def sink (tower : Tower σ) : σ := Stack.bottom tower.depth tower.stack

def layers (tower : Tower σ) : List Layer := Stack.layers tower.depth tower.stack

def push (layer : Layer) (tower : Tower σ) : Tower σ :=
  ⟨tower.depth + 1, (⟨layer, tower.stack⟩ : Layered (Stack σ tower.depth))⟩

/-- Drops the top layer with whatever it holds back. -/
def pop : Tower σ → Tower σ
  | ⟨0, stack⟩ => ⟨0, stack⟩
  | ⟨depth + 1, stack⟩ => ⟨depth, stack.below⟩

/-- Reports what the call of a write does. -/
def perform [Writer σ] (operation : Operation) (tower : Tower σ) :
    Outcome WriteError (Tower σ) (Option Nat) :=
  match operation with
  | .push layer => ⟨.ok none, tower.push layer⟩
  | .pop => ⟨.ok none, tower.pop⟩
  | .write chunk =>
      let outcome := Writer.put chunk tower.stack
      ⟨outcome.result, ⟨tower.depth, outcome.state⟩⟩

/-- The outcome of each operation in turn. A failure does not stop the ones after it. -/
def performAll [Writer σ] :
    List Operation → Tower σ → List (Outcome WriteError (Tower σ) (Option Nat))
  | [], _ => []
  | operation :: rest, tower =>
      let outcome := tower.perform operation
      outcome :: performAll rest outcome.state

end Tower

end CanonicalMarkdown.Output
