import CanonicalMarkdown.Yaml.Value

namespace CanonicalMarkdown.Yaml

/-! A value is written mark by mark, and each mark has to fit where it comes. -/

inductive PrintError where
  /-- A tag on a value that has a tag. -/
  | nestedTag
  | outsideDocument
  | unfinishedDocument
  | missingNode
  deriving DecidableEq, Repr

def PrintError.message : PrintError → String
  | .nestedTag => "serializing nested enums in YAML is not supported yet"
  | .outsideDocument => "expected DOCUMENT-START or STREAM-END"
  | .unfinishedDocument => "expected DOCUMENT-END"
  | .missingNode => "expected SCALAR, SEQUENCE-START, MAPPING-START, or ALIAS"

inductive Mark where
  | documentStart
  | documentEnd
  | scalar
  | sequenceStart
  | sequenceEnd
  | mappingStart
  | mappingEnd
  deriving DecidableEq, Repr

/-- What may come next. -/
inductive Slot where
  | root
  | documentEnd
  | item
  | key
  | value
  deriving DecidableEq, Repr

namespace Slot

def next : Slot → Slot
  | .root | .documentEnd => .documentEnd
  | .item => .item
  | .key => .value
  | .value => .key

def isClosedBy : Slot → Mark → Bool
  | .documentEnd, .documentEnd | .item, .sequenceEnd | .key, .mappingEnd => true
  | _, _ => false

end Slot

namespace Mark

/-- What may come next inside the node that a mark starts. -/
def inner? : Mark → Option (List Slot)
  | .scalar => some []
  | .sequenceStart => some [.item]
  | .mappingStart => some [.key]
  | _ => none

def fit (mark : Mark) : List Slot → Except PrintError (List Slot)
  | [] => if mark = .documentStart then .ok [.root] else .error .outsideDocument
  | slot :: outer =>
      if slot.isClosedBy mark then .ok outer
      else if slot = .documentEnd then .error .unfinishedDocument
      else match mark.inner? with
        | some inner => .ok (inner ++ slot.next :: outer)
        | none => .error .missingNode

/-! An opening mark waits until the marks after it show what it opens. -/

def lookahead : Mark → Nat
  | .documentStart => 1
  | .sequenceStart => 2
  | .mappingStart => 3
  | _ => 0

def step : Mark → Int
  | .documentStart | .sequenceStart | .mappingStart => 1
  | .documentEnd | .sequenceEnd | .mappingEnd => -1
  | .scalar => 0

/-- Whether as much is closed as is opened, at some point of the marks. -/
def closes (level : Int) : List Mark → Bool
  | [] => false
  | mark :: rest => level + mark.step == 0 || closes (level + mark.step) rest

def mustWait (mark : Mark) (rest : List Mark) : Bool :=
  rest.length < mark.lookahead && !closes 0 (mark :: rest)

/-- Fits the marks that need not wait. -/
def settle : List Mark → List Slot → Except PrintError (List Mark × List Slot)
  | [], slots => .ok ([], slots)
  | mark :: rest, slots =>
      if mark.mustWait rest then .ok (mark :: rest, slots) else do settle rest (← mark.fit slots)

end Mark

/-- What has been announced and not written. -/
inductive Announced where
  | nothing
  /-- A mapping of one entry. It is opened by what its key writes. -/
  | entry
  /-- The same for a mapping that has a tag and has been opened. -/
  | taggedEntry
  | tag
  deriving DecidableEq, Repr

structure Emission where
  waiting : List Mark := []
  slots : List Slot := []
  /-- The number of nodes that are open. -/
  depth : Nat := 0
  announced : Announced := .nothing

abbrev Emitting := StateT Emission (Except PrintError)

namespace Emitting

def mark (mark : Mark) : Emitting Unit := do
  let emission ← get
  let (waiting, slots) ← Mark.settle (emission.waiting ++ [mark]) emission.slots
  set { emission with waiting, slots }

def announce (announced : Announced) : Emitting Unit :=
  modify fun emission => { emission with announced }

/-- A node that stands in no other is a document. -/
def openNode (start : Mark) : Emitting Unit := do
  if (← get).depth = 0 then mark .documentStart
  modify fun emission => { emission with depth := emission.depth + 1 }
  mark start

def closeNode : Emitting Unit := do
  modify fun emission => { emission with depth := emission.depth - 1 }
  if (← get).depth = 0 then mark .documentEnd

def start (node : Mark) : Emitting Unit := do
  if (← get).announced = .entry then openNode .mappingStart
  announce .nothing
  openNode node

def stop (node : Mark) : Emitting Unit := do
  mark node
  closeNode

/-- The announcement of the entry takes the place of one that its key was to write. -/
def startEntry : Emitting Unit := do
  if (← get).announced = .tag then
    start .mappingStart
    announce .taggedEntry
  else
    announce .entry

def startTag : Emitting Unit := do
  if (← get).announced = .tag then
    start .mappingStart
    throw .nestedTag
  else
    announce .tag

end Emitting

open Emitting

namespace Value

mutual

def emit : Value → Emitting Unit
  | .null | .boolean _ | .integer _ | .float _ | .string _ => do
      start .scalar
      closeNode
  | .sequence items => do
      start .sequenceStart
      emitItems items
      stop .sequenceEnd
  | .mapping entries => do
      if entries.length = 1 then startEntry else start .mappingStart
      emitEntries entries
      stop .mappingEnd
  | .tagged _ value => do
      startTag
      value.emit

def emitItems : List Value → Emitting Unit
  | [] => return ()
  | item :: rest => do
      item.emit
      emitItems rest

def emitEntries : List (Value × Value) → Emitting Unit
  | [] => return ()
  | (key, value) :: rest => do
      key.emit
      value.emit
      emitEntries rest

end

/-- Whether every mark of the value fits. -/
def checkMarks (value : Value) : Except PrintError Unit := value.emit.run' {}

end Value

end CanonicalMarkdown.Yaml
