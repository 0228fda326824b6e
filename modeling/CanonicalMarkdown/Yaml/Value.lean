import CanonicalMarkdown.Number.Binary64

namespace CanonicalMarkdown.Yaml

/-! Values of front matter. A mapping keeps its entries in the order they were written. -/

inductive Value where
  | null
  | boolean (value : Bool)
  | integer (value : Int)
  | float (value : Binary64)
  | string (value : String)
  | sequence (items : List Value)
  | mapping (entries : List (Value × Value))
  | tagged (tag : String) (value : Value)

namespace Value

def kindName : Value → String
  | .null => "null"
  | .boolean _ => "bool"
  | .integer _ | .float _ => "number"
  | .string _ => "string"
  | .sequence _ => "sequence"
  | .mapping _ => "mapping"
  | .tagged _ _ => "tagged value"

/-! Two mappings are the same whatever the order of their entries. -/

mutual

def same : Value → Value → Bool
  | .null, .null => true
  | .boolean left, .boolean right => left == right
  | .integer left, .integer right => left == right
  | .float left, .float right => left.sameValue right
  | .string left, .string right => left == right
  | .sequence left, .sequence right => sameItems left right
  | .mapping left, .mapping right => left.length == right.length && sameEntries left right
  | .tagged tag left, .tagged otherTag right => tag == otherTag && left.same right
  | _, _ => false

def sameItems : List Value → List Value → Bool
  | [], [] => true
  | left :: lefts, right :: rights => left.same right && sameItems lefts rights
  | _, _ => false

def sameEntries : List (Value × Value) → List (Value × Value) → Bool
  | [], _ => true
  | (key, value) :: rest, entries =>
      entries.any (fun entry => key.same entry.1 && value.same entry.2) && sameEntries rest entries

end

def hasKey (entries : List (Value × Value)) (key : Value) : Bool :=
  entries.any fun entry => key.same entry.1

/-- A key that is present keeps its place and takes the new value. -/
def insert (entries : List (Value × Value)) (key value : Value) : List (Value × Value) :=
  if hasKey entries key then
    entries.map fun entry => if key.same entry.1 then (entry.1, value) else entry
  else
    entries ++ [(key, value)]

end Value

end CanonicalMarkdown.Yaml
