import CanonicalMarkdown.Render.Block
import CanonicalMarkdown.Render.Inline

namespace CanonicalMarkdown.Render

open Document Output

def builtIn : Kind → RenderFn
  | .document => fun _ => .nothing
  | .heading => Block.heading
  | .paragraph => Block.paragraph
  | .textBlock => Block.textBlock
  | .blockquote => Block.blockquote
  | .list => Block.list
  | .listItem => Block.listItem
  | .codeBlock => Block.codeBlock
  | .fencedCodeBlock => Block.fencedCodeBlock
  | .htmlBlock => Block.htmlBlock
  | .thematicBreak => Block.thematicBreak
  | .strikethrough => fun _ => .nothing
  | .autoLink => Inline.autoLink
  | .codeSpan => Inline.codeSpan
  | .emphasis => Inline.emphasis
  | .link => Inline.link
  | .image => Inline.image
  | .rawHtml => Inline.rawHtml
  | .text => Inline.text
  | .string => Inline.string

/-! Overrides take the place of built-in functions, kind by kind. -/

structure Overrides where
  find? : Kind → Option RenderFn

namespace Overrides

def empty : Overrides := ⟨fun _ => none⟩

def insert (overrides : Overrides) (kind : Kind) (render : RenderFn) : Overrides :=
  ⟨fun other => if other = kind then some render else overrides.find? other⟩

def contains (overrides : Overrides) (kind : Kind) : Bool := (overrides.find? kind).isSome

/-- The overridden kinds in their fixed order. -/
def kinds (overrides : Overrides) : List Kind := Kind.all.filter overrides.contains

def size (overrides : Overrides) : Nat := overrides.kinds.length

def isEmpty (overrides : Overrides) : Bool := overrides.kinds.isEmpty

/-- The function in effect for a kind. -/
def renderFn (overrides : Overrides) (kind : Kind) : RenderFn :=
  (overrides.find? kind).getD (builtIn kind)

end Overrides

structure Renderer where
  context : Context
  overrides : Overrides := Overrides.empty

namespace Renderer

/-- Functions may delegate to one another. More calls than there are kinds would repeat one. -/
def call (renderer : Renderer) (place : Place) (element : Element) (phase : Phase)
    (parts : List Layout) : (depth : Nat) → Kind → Rendering
  | 0, kind => .descend (.fail (.circularOverride kind))
  | depth + 1, kind =>
      renderer.overrides.renderFn kind {
        context := renderer.context
        place, element, phase, parts
        inEffect := renderer.call place element phase parts depth }

def render (renderer : Renderer) (place : Place) (element : Element) (phase : Phase)
    (parts : List Layout) : Rendering :=
  renderer.call place element phase parts Kind.all.length element.kind

/-- Enters the node, lays out its children unless they are skipped, and leaves it. -/
def around (renderer : Renderer) (place : Place) (element : Element) (parts : List Layout) :
    Layout :=
  let entered := renderer.render place element .enter parts
  let left := renderer.render place element .leave parts
  .visit element.id .enter (entered.layout ++
    .when (entered.status == .descend) (.concat parts) ++
    .visit element.id .leave left.layout)

mutual

def walk (renderer : Renderer) (place : Place) : Element → Layout
  | .mk id node children =>
      renderer.around place (.mk id node children)
        (renderer.walkEach (node :: place.ancestors) [] children)

/-- The layouts of siblings, given the ones before them from the nearest back. -/
def walkEach (renderer : Renderer) (ancestors previous : List Node) : List Element → List Layout
  | [] => []
  | element :: rest =>
      renderer.walk ⟨ancestors, previous, rest.head?.map Element.node⟩ element ::
        renderer.walkEach ancestors (element.node :: previous) rest

end

end Renderer

end CanonicalMarkdown.Render
