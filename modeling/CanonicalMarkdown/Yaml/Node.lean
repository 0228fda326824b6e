import CanonicalMarkdown.Yaml.Tag

namespace CanonicalMarkdown.Yaml

/-! A document before its aliases are followed. Anchors are numbered. -/

structure Properties where
  anchor : Option Nat := none
  tag : Tag := .absent
  deriving DecidableEq, Repr

inductive Node where
  | alias (number : Nat)
  | scalar (properties : Properties) (text : String) (plain : Bool)
  | sequence (properties : Properties) (items : List Node)
  | mapping (properties : Properties) (entries : List (Node × Node))

namespace Node

/-- What stands where nothing is written. -/
def empty : Node := .scalar {} "" true

/-! A collection counts twice, for its start and its end. -/

mutual

def size : Node → Nat
  | .alias _ | .scalar _ _ _ => 1
  | .sequence _ items => sizeOfItems items + 2
  | .mapping _ entries => sizeOfEntries entries + 2

def sizeOfItems : List Node → Nat
  | [] => 0
  | item :: rest => item.size + sizeOfItems rest

def sizeOfEntries : List (Node × Node) → Nat
  | [] => 0
  | (key, value) :: rest => key.size + value.size + sizeOfEntries rest

end

/-! The nodes that have an anchor, in the order in which they start. -/

abbrev Anchored := List (Nat × Node)

def marked (properties : Properties) (node : Node) : Anchored :=
  match properties.anchor with
  | some number => [(number, node)]
  | none => []

mutual

def anchored : Node → Anchored
  | .alias _ => []
  | .scalar properties text plain => marked properties (.scalar properties text plain)
  | .sequence properties items =>
      marked properties (.sequence properties items) ++ anchoredItems items
  | .mapping properties entries =>
      marked properties (.mapping properties entries) ++ anchoredEntries entries

def anchoredItems : List Node → Anchored
  | [] => []
  | item :: rest => item.anchored ++ anchoredItems rest

def anchoredEntries : List (Node × Node) → Anchored
  | [] => []
  | (key, value) :: rest => key.anchored ++ value.anchored ++ anchoredEntries rest

end

end Node

end CanonicalMarkdown.Yaml
