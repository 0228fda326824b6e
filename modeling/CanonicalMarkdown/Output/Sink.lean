import CanonicalMarkdown.Output.Writer

namespace CanonicalMarkdown.Output

/-! A buffer accepts every write. -/

structure Buffer where
  bytes : Array UInt8
  deriving DecidableEq, Repr

namespace Buffer

def empty : Buffer := ⟨#[]⟩

def push (buffer : Buffer) (data : Bytes) : Buffer :=
  ⟨data.foldl Array.push buffer.bytes⟩

instance : Sink Buffer where
  write data := fun buffer => ⟨.ok data.length, buffer.push data⟩
  writeByte byte := fun buffer => ⟨.ok (), ⟨buffer.bytes.push byte⟩⟩
  contents buffer := buffer.bytes.toList

end Buffer

/-! A device takes bytes by separate calls, each of which may be interrupted, cut short or
refused. -/

structure Device where
  taken : Array UInt8 := #[]
  calls : Nat := 0
  /-- The most bytes one call takes. -/
  chunk : Option Nat := none
  /-- The most bytes all calls together take. -/
  limit : Option Nat := none
  /-- When positive, every call whose number it divides is interrupted. -/
  interrupt : Nat := 0
  /-- Whether a full device takes nothing instead of refusing. -/
  stalls : Bool := false
  deriving DecidableEq, Repr

inductive Response where
  | interrupted
  | refused
  | took (count : Nat)
  deriving DecidableEq, Repr

namespace Device

def isFull (device : Device) : Bool :=
  match device.limit with
  | none => false
  | some limit => limit ≤ device.taken.size

/-- How many of `wanted` bytes the device takes by one call that is neither interrupted nor
refused. -/
def room (device : Device) (wanted : Nat) : Nat :=
  let bounded := match device.chunk with
    | none => wanted
    | some chunk => min wanted chunk
  match device.limit with
  | none => bounded
  | some limit => min bounded (limit - device.taken.size)

def call (device : Device) (data : Bytes) : Response × Device :=
  let counted := { device with calls := device.calls + 1 }
  if 0 < device.interrupt ∧ counted.calls % device.interrupt = 0 then
    (.interrupted, counted)
  else if counted.isFull ∧ !data.isEmpty then
    (if device.stalls then .took 0 else .refused, counted)
  else
    let count := counted.room data.length
    (.took count, { counted with taken := (data.take count).foldl Array.push counted.taken })

/-- Calls until all of `data` is taken, at most `attempts` times. Interrupted calls are made again,
a call that takes nothing ends the write, and nothing is called for no data. -/
def writeWithin (attempts : Nat) (data : Bytes) : Action WriteError Device := fun device =>
  match data, attempts with
  | [], _ => ⟨.ok (), device⟩
  | _ :: _, 0 => ⟨.error .stalled, device⟩
  | byte :: rest, attempts + 1 =>
      match device.call (byte :: rest) with
      | (.interrupted, device) => writeWithin attempts (byte :: rest) device
      | (.refused, device) => ⟨.error .full, device⟩
      | (.took 0, device) => ⟨.error .stalled, device⟩
      | (.took (count + 1), device) => writeWithin attempts (rest.drop count) device

/-- Two calls for each byte are enough: of two calls in a row at most one is interrupted, unless
every call is. -/
instance : Sink Device where
  write data := fun device =>
    (writeWithin (2 * data.length) data device).map fun _ => data.length
  contents device := device.taken.toList

end Device

end CanonicalMarkdown.Output
