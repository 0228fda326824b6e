import CanonicalMarkdown.Document.Tree

namespace CanonicalMarkdown.Document

/-! An element is a node with everything below it. -/

inductive Element where
  | mk (id : NodeId) (node : Node) (children : List Element)

namespace Element

def id : Element → NodeId
  | .mk id _ _ => id

def node : Element → Node
  | .mk _ node _ => node

def children : Element → List Element
  | .mk _ _ children => children

def kind (element : Element) : Kind := element.node.kind

end Element

namespace Tree

/-- The element of a node, cut off `depth` levels below it. -/
def elementWithin (tree : Tree) : (depth : Nat) → NodeId → Node → Element
  | 0, id, node => .mk id node []
  | depth + 1, id, node =>
      .mk id node ((tree.children id).filterMap fun child =>
        (tree.node? child).map (tree.elementWithin depth child))

/-- No chain of descendants is longer than the tree has nodes. -/
def element? (tree : Tree) (id : NodeId) : Option Element :=
  (tree.node? id).map (tree.elementWithin tree.size id)

/-- The whole document. -/
def root (tree : Tree) : Element :=
  tree.elementWithin tree.size rootId ((tree.node? rootId).getD .document)

end Tree

end CanonicalMarkdown.Document
