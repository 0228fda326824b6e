import CanonicalMarkdown.Toml.Value

namespace CanonicalMarkdown.Toml

/-! Tables while they are being read. How a table came about decides what may still be added. -/

inductive Origin where
  | header
  /-- Named by a header only as part of a longer name. -/
  | implied
  | dotted
  deriving DecidableEq, Repr

inductive Item where
  | value (value : Value)
  | table (origin : Origin) (entries : List (String × Item))
  /-- The elements of an array that has a header for each of them. -/
  | tables (elements : List (List (String × Item)))

abbrev Table := List (String × Item)

namespace Table

def put (table : Table) (key : String) (item : Item) : Table :=
  if (table.lookup key).isSome then
    table.map fun entry => if entry.1 == key then (key, item) else entry
  else
    table ++ [(key, item)]

/-- What becomes of a table that came about in a certain way. -/
abbrev Edit := Origin → Table → Except ReadError (Origin × Table)

/-- Edits the table that a path leads to, and makes the tables on the way that are missing. A dotted
path does not lead into a table that has a header, and no path leads into a value. -/
def follow (dotted : Bool) (edit : Edit) : (path : List String) → Edit
  | [], origin, table => edit origin table
  | key :: rest, origin, table =>
      match table.lookup key with
      | none => do
          let fresh := if dotted then .dotted else .implied
          let (made, inner) ← follow dotted edit rest fresh []
          return (origin, table.put key (.table made inner))
      | some (.table made inner) =>
          if dotted && made == .header then
            .error (.redefinedKey key)
          else do
            let (made, inner) ← follow dotted edit rest made inner
            return (origin, table.put key (.table made inner))
      | some (.tables elements) =>
          match elements.getLast? with
          | none => .error (.redefinedKey key)
          | some last => do
              let (_, last) ← follow dotted edit rest .header last
              return (origin, table.put key (.tables (elements.dropLast ++ [last])))
      | some (.value _) => .error (.redefinedKey key)

def within (dotted : Bool) (edit : Edit) (path : List String) : Edit :=
  if path.length < greatestDepth then follow dotted edit path else fun _ _ => .error .tooDeep

/-- Opens a table by its header, which is allowed once. -/
def openTable (key : String) : Edit := fun origin table =>
  match table.lookup key with
  | none => .ok (origin, table.put key (.table .header []))
  | some (.table .implied inner) => .ok (origin, table.put key (.table .header inner))
  | some _ => .error (.redefinedKey key)

def openElement (key : String) : Edit := fun origin table =>
  match table.lookup key with
  | none => .ok (origin, table.put key (.tables [[]]))
  | some (.tables elements) => .ok (origin, table.put key (.tables (elements ++ [[]])))
  | some _ => .error (.redefinedKey key)

/-- Gives a new key its value. A table that a dotted path has led to counts as made by it. -/
def assignHere (belowPath : Bool) (key : String) (value : Value) : Edit := fun origin table =>
  if belowPath && origin == .header then .error (.redefinedKey key)
  else match table.lookup key with
    | none => .ok (if belowPath then .dotted else origin, table.put key (.value value))
    | some _ => .error (.redefinedKey key)

def assign (path : List String) (key : String) (value : Value) : Edit :=
  within true (assignHere (!path.isEmpty) key value) path

end Table

/-! The value of a table once nothing can be added. -/

mutual

def Item.toValue : Item → Value
  | .value value => value
  | .table _ entries => .table (entriesToValues entries)
  | .tables elements => .array (elementsToValues elements)

def entriesToValues : List (String × Item) → List (String × Value)
  | [] => []
  | (key, item) :: rest => (key, item.toValue) :: entriesToValues rest

def elementsToValues : List (List (String × Item)) → List Value
  | [] => []
  | element :: rest => .table (entriesToValues element) :: elementsToValues rest

end

end CanonicalMarkdown.Toml
