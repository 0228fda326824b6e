import CanonicalMarkdown.Proofs.Document.Position
import CanonicalMarkdown.Render.Formatter

namespace CanonicalMarkdown.Render

open Document

namespace Renderer

variable (renderer : Renderer)

/-- The layouts of the children of an element that stands at `place`. -/
def parts (place : Place) (element : Element) : List Layout :=
  renderer.walkEach (element.node :: place.ancestors) [] element.children

/-- What the children write, one after the other. -/
def content (place : Place) (element : Element) : Layout :=
  .concat (renderer.parts place element)

/-- What entering an element does, its children included where it lays them out itself. -/
def entering (place : Place) (element : Element) : Layout :=
  (renderer.render place element .enter (renderer.parts place element)).layout

theorem walk_eq (place : Place) (element : Element) :
    renderer.walk place element =
      renderer.around place element (renderer.parts place element) := by
  cases element with
  | mk id node children => rfl

/-! The same by number: every node of a tree at its own place. -/

def layoutOf (tree : Tree) (id : NodeId) : Layout :=
  ((tree.element? id).map (renderer.walk (tree.place id))).getD .done

variable {tree : Tree} (hlinked : tree.Linked)
include hlinked

theorem walkEach_eq {parent : NodeId} {node : Node} {left right : List NodeId}
    (hnode : tree.node? parent = some node) (hsplit : tree.children parent = left ++ right) :
    renderer.walkEach (node :: (tree.place parent).ancestors) (tree.nodes left).reverse
        (tree.elements right) =
      right.map (renderer.layoutOf tree) := by
  induction right generalizing left with
  | nil => rfl
  | cons child right ih =>
      have hmem : child ∈ tree.children parent := by simp [hsplit]
      obtain ⟨own, hown⟩ := hlinked.exists_node?_of_mem_children hmem
      have helement := hlinked.element?_eq hown
      have hnext : (tree.elements right).head?.map Element.node =
          right.head?.bind tree.node? := by
        cases right with
        | nil => rfl
        | cons next rest =>
            have hmem : next ∈ tree.children parent := by simp [hsplit]
            obtain ⟨other, hother⟩ := hlinked.exists_node?_of_mem_children hmem
            have hfirst : tree.elements (next :: rest) =
                .mk next other (tree.elements (tree.children next)) :: tree.elements rest :=
              List.filterMap_cons_some (hlinked.element?_eq hother)
            rw [hfirst]
            exact hother.symm
      have hplace := hlinked.place_of_split hsplit hnode
      have hpassed : tree.children parent = (left ++ [child]) ++ right := by simp [hsplit]
      have hrest := ih hpassed
      have hleft : (tree.nodes (left ++ [child])).reverse = own :: (tree.nodes left).reverse := by
        simp [Tree.nodes, List.filterMap_append, hown]
      have hhead : tree.elements (child :: right) =
          .mk child own (tree.elements (tree.children child)) :: tree.elements right :=
        List.filterMap_cons_some helement
      rw [hleft] at hrest
      rw [hhead, walkEach, hnext, ← hplace, List.map_cons, layoutOf, helement]
      exact congrArg _ hrest

theorem parts_eq {id : NodeId} {node : Node} (hnode : tree.node? id = some node) :
    renderer.parts (tree.place id) (.mk id node (tree.elements (tree.children id))) =
      (tree.children id).map (renderer.layoutOf tree) := by
  have hall : tree.children id = [] ++ tree.children id := rfl
  exact renderer.walkEach_eq hlinked hnode hall

theorem layoutOf_eq {id : NodeId} {node : Node} (hnode : tree.node? id = some node) :
    renderer.layoutOf tree id =
      renderer.around (tree.place id) (.mk id node (tree.elements (tree.children id)))
        ((tree.children id).map (renderer.layoutOf tree)) := by
  rw [← renderer.parts_eq hlinked hnode, ← walk_eq, layoutOf, hlinked.element?_eq hnode]
  rfl

end Renderer

theorem Formatter.body_eq (formatter : Formatter) (source : Source) {tree : Tree}
    (hgrown : tree.Grown) :
    formatter.body source tree = (formatter.renderer source).layoutOf tree Tree.rootId := by
  rw [Renderer.layoutOf, hgrown.linked.element?_root, hgrown.place_root]
  rfl

end CanonicalMarkdown.Render
