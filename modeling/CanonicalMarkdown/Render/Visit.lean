import CanonicalMarkdown.Document.Element
import CanonicalMarkdown.Render.Layout
import CanonicalMarkdown.Render.Options

namespace CanonicalMarkdown.Render

open Document Output

/-- Formats code of the given language, or leaves it alone. -/
abbrev CodeFormatter := (language source : String) → Option String

def CodeFormatter.none : CodeFormatter := fun _ _ => .none

structure Context where
  source : Source
  options : Options := {}
  formatCode : CodeFormatter := CodeFormatter.none

inductive Status where
  | descend
  | skipChildren
  deriving DecidableEq, Repr

/-- What rendering a node in one phase does, and whether its children are rendered next. -/
structure Rendering where
  layout : Layout
  status : Status

namespace Rendering

def descend (layout : Layout) : Rendering := ⟨layout, .descend⟩

def skipChildren (layout : Layout) : Rendering := ⟨layout, .skipChildren⟩

def nothing : Rendering := .descend .done

end Rendering

/-- Everything a render function may look at. -/
structure Visit where
  context : Context
  place : Place
  element : Element
  phase : Phase
  /-- The layouts of the children, each complete. -/
  parts : List Layout
  /-- The function in effect for a kind, applied to this node. -/
  inEffect : Kind → Rendering

abbrev RenderFn := Visit → Rendering

namespace Visit

def node (visit : Visit) : Node := visit.element.node

def entering (visit : Visit) : Bool := visit.phase == .enter

def children (visit : Visit) : Layout := Layout.concat visit.parts

end Visit

namespace Context

def join (context : Context) (segments : List Segment) : Bytes :=
  Segment.join context.source segments

/-- What the formatter makes of the code. Code that is not text never reaches it. -/
def formatted (context : Context) (language : String) (code : Bytes) : Bytes :=
  match code.toText? with
  | none => code
  | some text =>
      match context.formatCode language text with
      | some formatted => Bytes.ofText formatted
      | none => code

def needsNewline (code formatted : Bytes) : Bool :=
  code.toText?.isSome && !formatted.isEmpty && !formatted.endsLine

/-- Formatted code, ended by a newline unless it is empty. -/
def code (context : Context) (language : String) (lines : List Segment) : Layout :=
  let code := context.join lines
  let formatted := context.formatted language code
  .bytes formatted ++ .when (needsNewline code formatted) .newline

end Context

end CanonicalMarkdown.Render
