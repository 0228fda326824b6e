import CanonicalMarkdown.Document.Node

namespace CanonicalMarkdown.Document

/-! What surrounds a node decides how it is laid out. -/

structure Place where
  /-- From the parent outwards. -/
  ancestors : List Node
  /-- From the nearest sibling back to the first. -/
  previous : List Node
  next : Option Node
  deriving DecidableEq, Repr

namespace Place

def root : Place := ⟨[], [], none⟩

def parent? (place : Place) : Option Node := place.ancestors.head?

def hasPrevious (place : Place) : Bool := !place.previous.isEmpty

def hasNext (place : Place) : Bool := place.next.isSome

/-- The list items around a node, up to the nearest quotation. -/
def listDepth (place : Place) : Nat :=
  (place.ancestors.takeWhile (·.kind != .blockquote)).countP (·.kind == .listItem)

def isInList (place : Place) : Bool := 0 < place.listDepth

/-- The number of a list item among its siblings, counting from one. -/
def itemPosition (place : Place) : Nat :=
  place.previous.countP (·.kind == .listItem) + 1

/-- The inline nodes around a node, up to the block that holds them. -/
def inlineAncestors (place : Place) : List Node :=
  place.ancestors.takeWhile Node.isInline

def block? (place : Place) : Option Node :=
  place.ancestors.find? (!·.isInline)

def isInTextBlock (place : Place) : Bool :=
  place.block?.any (·.kind == .textBlock)

end Place

end CanonicalMarkdown.Document
