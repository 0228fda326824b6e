import CanonicalMarkdown.Document.Place

namespace CanonicalMarkdown.Document

/-! Nodes are numbered in the order of their creation and linked to their relatives by number. -/

abbrev NodeId := Nat

structure Entry where
  node : Node
  parent : Option NodeId := none
  first : Option NodeId := none
  last : Option NodeId := none
  previous : Option NodeId := none
  next : Option NodeId := none
  deriving DecidableEq, Repr

structure Tree where
  entries : Array Entry
  deriving DecidableEq, Repr

namespace Tree

def rootId : NodeId := 0

/-- A document without content. -/
def new : Tree := ⟨#[{ node := .document }]⟩

def size (tree : Tree) : Nat := tree.entries.size

/-- Never holds of a tree, which has at least its root. -/
def isEmpty (tree : Tree) : Bool := tree.entries.isEmpty

def get? (tree : Tree) (id : NodeId) : Option Entry := tree.entries[id]?

def node? (tree : Tree) (id : NodeId) : Option Node := (tree.get? id).map Entry.node

/-- The nodes with these numbers; a number that no node has is passed over. -/
def nodes (tree : Tree) (ids : List NodeId) : List Node := ids.filterMap tree.node?

/-! A new node becomes the last child of its parent. -/

def linkChild (entries : Array Entry) (parent child : NodeId) (last : Option NodeId) :
    Array Entry :=
  match last with
  | none =>
      entries.modify parent fun entry => { entry with first := some child, last := some child }
  | some sibling =>
      (entries.modify sibling fun entry => { entry with next := some child }).modify parent
        fun entry => { entry with last := some child }

/-- The number of the new node and the tree with it, unless there is no such parent. -/
def append? (tree : Tree) (parent : NodeId) (node : Node) : Option (NodeId × Tree) :=
  (tree.get? parent).map fun above =>
    let child := tree.size
    let entry : Entry := { node, parent := some parent, previous := above.last }
    (child, ⟨(linkChild tree.entries parent child above.last).push entry⟩)

/-- Replaces what the node holds and leaves its links. -/
def set (tree : Tree) (id : NodeId) (node : Node) : Tree :=
  ⟨tree.entries.modify id fun entry => { entry with node }⟩

/-! Relatives are reached by following links, at most as often as there are nodes. -/

def follow (step : NodeId → Option NodeId) : (count : Nat) → Option NodeId → List NodeId
  | _, none => []
  | 0, some _ => []
  | count + 1, some id => id :: follow step count (step id)

def parentOf (tree : Tree) (id : NodeId) : Option NodeId := (tree.get? id).bind Entry.parent

def firstOf (tree : Tree) (id : NodeId) : Option NodeId := (tree.get? id).bind Entry.first

def lastOf (tree : Tree) (id : NodeId) : Option NodeId := (tree.get? id).bind Entry.last

def previousOf (tree : Tree) (id : NodeId) : Option NodeId := (tree.get? id).bind Entry.previous

def nextOf (tree : Tree) (id : NodeId) : Option NodeId := (tree.get? id).bind Entry.next

/-- From the parent up to the root. -/
def ancestors (tree : Tree) (id : NodeId) : List NodeId :=
  follow tree.parentOf tree.size (tree.parentOf id)

def children (tree : Tree) (id : NodeId) : List NodeId :=
  follow tree.nextOf tree.size (tree.firstOf id)

/-- From the nearest sibling back to the first. -/
def previousSiblings (tree : Tree) (id : NodeId) : List NodeId :=
  follow tree.previousOf tree.size (tree.previousOf id)

def place (tree : Tree) (id : NodeId) : Place where
  ancestors := tree.nodes (tree.ancestors id)
  previous := tree.nodes (tree.previousSiblings id)
  next := (tree.nextOf id).bind tree.node?

end Tree

end CanonicalMarkdown.Document
