import CanonicalMarkdown.Yaml.Resolution
import CanonicalMarkdown.Yaml.Token.Scan

namespace CanonicalMarkdown.Yaml

/-! Documents are read from their tokens. -/

structure Reader where
  tokens : List Token
  /-- What handles of tags stand for. -/
  handles : List (String × Bytes) := []
  /-- The number that each name stands for by now. -/
  anchors : List (String × Nat) := []

abbrev Reading := StateT Reader (Except ReadError)

namespace Reading

def peek : Reading (Option Token) := do return (← get).tokens.head?

def skip : Reading Unit := modify fun reader => { reader with tokens := reader.tokens.drop 1 }

def expect (token : Token) : Reading Unit := do
  if (← peek) == some token then skip else throw .unexpectedToken

def isAtAny (tokens : List Token) : Reading Bool := do
  match ← peek with
  | none => return true
  | some token => return tokens.contains token

def resolveTag (handle : String) (suffix : Bytes) : Reading Tag := do
  if handle == "" then return .ofBytes suffix
  match (← get).handles.lookup handle with
  | some lead => return .ofBytes (lead ++ suffix)
  | none => throw .unknownTagHandle

/-- An anchor gets the number of names there are. Under a name that is new no other anchor has had
that number. -/
def number (name : String) : Reading Nat := do
  let anchors := (← get).anchors
  let others := anchors.filter (·.1 != name)
  modify fun reader => { reader with anchors := (name, anchors.length) :: others }
  return anchors.length

/-- At most one anchor and one tag, in either order. -/
def properties? : Reading (Option Properties) := do
  match ← peek with
  | some (.anchor name) =>
      skip
      match ← peek with
      | some (.tag handle suffix) =>
          skip
          return some ⟨← number name, ← resolveTag handle suffix⟩
      | _ => return some ⟨← number name, .absent⟩
  | some (.tag handle suffix) =>
      skip
      let tag ← resolveTag handle suffix
      match ← peek with
      | some (.anchor name) =>
          skip
          return some ⟨← number name, tag⟩
      | _ => return some ⟨none, tag⟩
  | _ => return none

def aliased (name : String) : Reading Node := do
  match (← get).anchors.lookup name with
  | some number => return .alias number
  | none => throw .unknownAlias

mutual

/-- A node, `steps` bounding the number of calls below it. In block notation collections may be
told by indentation, and as the value of a key a sequence may stand without any. -/
def node (inBlock underKey : Bool) : (steps : Nat) → Reading Node
  | 0 => throw .unexpectedToken
  | steps + 1 => do
      if let some (.alias name) := ← peek then
        skip
        return ← aliased name
      let given ← properties?
      let properties := given.getD {}
      match ← peek, inBlock, underKey with
      | some .blockEntry, _, true => return .sequence properties (← bareEntries steps [])
      | some (.scalar text plain), _, _ =>
          skip
          return .scalar properties text plain
      | some .flowSequenceStart, _, _ =>
          skip
          return .sequence properties (← flowItems true steps [])
      | some .flowMappingStart, _, _ =>
          skip
          return .mapping properties (← flowEntries true steps [])
      | some .blockSequenceStart, true, _ =>
          skip
          return .sequence properties (← blockItems steps [])
      | some .blockMappingStart, true, _ =>
          skip
          return .mapping properties (← blockEntries steps [])
      | _, _, _ =>
          if given.isSome then return .scalar properties "" true else throw .unexpectedToken

/-- A node, or none where one of the given tokens follows at once. -/
def nodeUnless (stops : List Token) (inBlock underKey : Bool) : (steps : Nat) → Reading Node
  | 0 => throw .unexpectedToken
  | steps + 1 => do
      if ← isAtAny stops then return .empty else node inBlock underKey steps

def blockItems : (steps : Nat) → List Node → Reading (List Node)
  | 0, _ => throw .unexpectedToken
  | steps + 1, items => do
      match ← peek with
      | some .blockEntry =>
          skip
          let item ← nodeUnless [.blockEntry, .blockEnd] true false steps
          blockItems steps (items ++ [item])
      | some .blockEnd =>
          skip
          return items
      | _ => throw .unexpectedToken

/-- The entries of a sequence that stands under a key without indentation. -/
def bareEntries : (steps : Nat) → List Node → Reading (List Node)
  | 0, _ => throw .unexpectedToken
  | steps + 1, items => do
      match ← peek with
      | some .blockEntry =>
          skip
          let item ← nodeUnless [.blockEntry, .key, .value, .blockEnd] true false steps
          bareEntries steps (items ++ [item])
      | _ => return items

def blockEntries : (steps : Nat) → List (Node × Node) → Reading (List (Node × Node))
  | 0, _ => throw .unexpectedToken
  | steps + 1, entries => do
      match ← peek with
      | some .key =>
          skip
          let key ← nodeUnless [.key, .value, .blockEnd] true true steps
          let value ← valueUnless [.key, .value, .blockEnd] true true steps
          blockEntries steps (entries ++ [(key, value)])
      | some .blockEnd =>
          skip
          return entries
      | _ => throw .unexpectedToken

/-- What follows a key: a colon with a node or without one, or nothing. -/
def valueUnless (stops : List Token) (inBlock underKey : Bool) : (steps : Nat) → Reading Node
  | 0 => throw .unexpectedToken
  | steps + 1 => do
      if (← peek) == some .value then
        skip
        nodeUnless stops inBlock underKey steps
      else
        return .empty

/-- The key of an entry in a flow sequence. The token that shows there is none is taken with it. -/
def pairKey : (steps : Nat) → Reading Node
  | 0 => throw .unexpectedToken
  | steps + 1 => do
      if ← isAtAny [.value, .flowEntry, .flowSequenceEnd] then
        skip
        return .empty
      else
        node false false steps

/-- In a flow sequence a key with its value is a mapping of one entry. -/
def flowItems (first : Bool) : (steps : Nat) → List Node → Reading (List Node)
  | 0, _ => throw .unexpectedToken
  | steps + 1, items => do
      if (← peek) == some .flowSequenceEnd then
        skip
        return items
      if !first then expect .flowEntry
      match ← peek with
      | some .flowSequenceEnd =>
          skip
          return items
      | some .key =>
          skip
          let key ← pairKey steps
          let value ← valueUnless [.flowEntry, .flowSequenceEnd] false false steps
          flowItems false steps (items ++ [.mapping {} [(key, value)]])
      | _ =>
          let item ← node false false steps
          flowItems false steps (items ++ [item])

def flowEntries (first : Bool) : (steps : Nat) → List (Node × Node) →
    Reading (List (Node × Node))
  | 0, _ => throw .unexpectedToken
  | steps + 1, entries => do
      if (← peek) == some .flowMappingEnd then
        skip
        return entries
      if !first then expect .flowEntry
      match ← peek with
      | some .flowMappingEnd =>
          skip
          return entries
      | some .key =>
          skip
          let key ← nodeUnless [.value, .flowEntry, .flowMappingEnd] false false steps
          let value ← valueUnless [.flowEntry, .flowMappingEnd] false false steps
          flowEntries false steps (entries ++ [(key, value)])
      | _ =>
          let key ← node false false steps
          flowEntries false steps (entries ++ [(key, .empty)])

end

/-- At most one version and one meaning for each handle, and then the mark that starts the
document. -/
def directives : (steps : Nat) → (versioned seen : Bool) → Reading Unit
  | 0, _, _ => throw .unexpectedToken
  | steps + 1, versioned, seen => do
      match ← peek with
      | some (.versionDirective major minor) =>
          if versioned then throw .repeatedDirective
          if major ≠ 1 ∨ (minor ≠ 1 ∧ minor ≠ 2) then throw .unsupportedVersion
          skip
          directives steps true true
      | some (.tagDirective handle lead) =>
          let handles := (← get).handles
          if (handles.lookup handle).isSome then throw .repeatedDirective
          skip
          modify fun reader => { reader with handles := handles ++ [(handle, lead)] }
          directives steps versioned true
      | some .documentStart => skip
      | _ => if seen then throw .unexpectedToken else return ()

def defaultHandles : List (String × Bytes) :=
  [("!", Bytes.ofText "!"), ("!!", Bytes.ofText Tag.coreLead)]

def atDocumentBoundary : Reading Bool := do
  match ← peek with
  | none | some .documentStart | some .documentEnd | some (.versionDirective _ _)
  | some (.tagDirective _ _) => return true
  | some _ => return false

def documentEnds : (steps : Nat) → Reading Unit
  | 0 => return ()
  | steps + 1 => do
      if (← peek) == some .documentEnd then
        skip
        documentEnds steps

/-- A stream with no document is read as an empty one, one with several is refused. -/
def document : Reading Node := do
  let steps := 4 * (← get).tokens.length + 4
  if (← peek).isNone then return .empty
  let implicit := (← peek) != some .documentStart && !(← atDocumentBoundary)
  if !implicit then
    if (← peek) == some .documentEnd then throw .unexpectedToken
    directives steps false false
  modify fun reader => { reader with handles := reader.handles ++ defaultHandles }
  let root ← if !implicit && (← atDocumentBoundary) then pure .empty else node true false steps
  documentEnds steps
  if (← peek).isNone then return root else throw .severalDocuments

end Reading

def Value.read (text : String) : Except ReadError Value := do
  let root ← Reading.document.run' { tokens := ← Token.scan text }
  root.toValue

end CanonicalMarkdown.Yaml
