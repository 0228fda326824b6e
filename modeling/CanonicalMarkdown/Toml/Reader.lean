import CanonicalMarkdown.Toml.Scalar
import CanonicalMarkdown.Toml.Table
import CanonicalMarkdown.Toml.Text

namespace CanonicalMarkdown.Toml

/-! Each call consumes at least one character before the next, so the length of the text bounds the
steps. The depth is what may still be opened. -/

mutual

def readValue (depth : Nat) : (steps : Nat) → Scan Value
  | 0, _ => .error .malformedValue
  | steps + 1, text =>
      match text with
      | '"' :: _ => do
          let (value, rest) ← readString .basic text
          return (.string value, rest)
      | '\'' :: _ => do
          let (value, rest) ← readString .literal text
          return (.string value, rest)
      | '[' :: rest => do
          if depth = 0 then throw .tooDeep
          let (items, rest) ← readItems (depth - 1) steps [] rest
          return (.array items, rest)
      | '\x7b' :: rest => do
          if depth = 0 then throw .tooDeep
          let (table, rest) ← readEntries (depth - 1) steps [] rest
          return (.table (entriesToValues table), rest)
      | _ => Scalar.read text

/-- The items up to the closing bracket; the last may be followed by a comma. -/
def readItems (depth : Nat) : (steps : Nat) → (items : List Value) → Scan (List Value)
  | 0, _, _ => .error .unclosedArray
  | steps + 1, items, text => do
      match ← skipGaps false text with
      | ']' :: rest => return (items, rest)
      | text =>
          let (item, rest) ← readValue depth steps text
          let items := items ++ [item]
          match ← skipGaps false rest with
          | ',' :: rest => readItems depth steps items rest
          | ']' :: rest => return (items, rest)
          | _ => throw .unclosedArray

/-- The entries up to the closing brace; the last may be followed by a comma. Between braces a line
may end wherever blanks may stand, except inside a key. -/
def readEntries (depth : Nat) : (steps : Nat) → (entries : Table) → Scan Table
  | 0, _, _ => .error .unclosedTable
  | steps + 1, entries, text => do
      match ← skipGaps false text with
      | '\x7d' :: rest => return (entries, rest)
      | text =>
          let ((path, key), rest) ← readKey text
          match ← skipGaps false rest with
          | '=' :: rest =>
              let (value, rest) ← readValue depth steps (← skipGaps false rest)
              let (_, entries) ← Table.assign path key value .header entries
              match ← skipGaps false rest with
              | ',' :: rest => readEntries depth steps entries rest
              | '\x7d' :: rest => return (entries, rest)
              | _ => throw .unclosedTable
          | _ => throw .malformedKey

end

/-- What an expression does to the table of the whole file, where the one after it belongs, and the
text that follows. -/
structure Line where
  root : Table
  here : List String
  rest : List Char

namespace Line

def header (root : Table) (openHere : String → Table.Edit) (closing text : List Char) :
    Except ReadError Line := do
  let ((path, key), rest) ← readKey text
  if closing.isPrefixOf rest then
    let (_, root) ← Table.within false (openHere key) path .header root
    return ⟨root, path ++ [key], ← endLine false (rest.drop closing.length)⟩
  else
    throw .unclosedHeader

def assignment (root : Table) (here : List String) (text : List Char) : Except ReadError Line := do
  let ((path, key), rest) ← readKey text
  match rest with
  | '=' :: rest =>
      let (value, rest) ← readValue greatestDepth (rest.length + 1) (skipBlanks rest)
      let (_, root) ← Table.follow false (Table.assign path key value) here .header root
      return ⟨root, here, ← endLine false rest⟩
  | _ => throw .malformedKey

def read (root : Table) (here : List String) (text : List Char) : Except ReadError Line :=
  match text with
  | '[' :: '[' :: rest => header root Table.openElement [']', ']'] rest
  | '[' :: rest => header root Table.openTable [']'] rest
  | _ => assignment root here text

end Line

def readLines : (steps : Nat) → (root : Table) → (here : List String) → List Char →
    Except ReadError Table
  | 0, root, _, _ => .ok root
  | steps + 1, root, here, text => do
      match ← skipGaps false text with
      | [] => return root
      | text =>
          let line ← Line.read root here text
          readLines steps line.root line.here line.rest

def dropByteOrderMark : List Char → List Char
  | '\ufeff' :: rest => rest
  | text => text

def Value.read (text : String) : Except ReadError Value := do
  let text := dropByteOrderMark text.toList
  return .table (entriesToValues (← readLines (text.length + 1) [] [] text))

end CanonicalMarkdown.Toml
