import CanonicalMarkdown.Document.Builder
import CanonicalMarkdown.Output.Sink
import CanonicalMarkdown.Render.FrontMatter
import CanonicalMarkdown.Render.Walk

namespace CanonicalMarkdown.Render

open Document Output

structure Formatter where
  overrides : Overrides := Overrides.empty
  options : Options := {}
  formatCode : CodeFormatter := CodeFormatter.none

inductive FormatError where
  | build (cause : BuildError)
  | render (cause : RenderError)

def FormatError.message : FormatError → String
  | .build cause => cause.message
  | .render cause => cause.message

namespace Formatter

def renderer (formatter : Formatter) (source : Source) : Renderer where
  context := { source, options := formatter.options, formatCode := formatter.formatCode }
  overrides := formatter.overrides

def body (formatter : Formatter) (source : Source) (tree : Tree) : Layout :=
  (formatter.renderer source).walk Place.root tree.root

/-- The front matter, the body without the newlines at its end, and one newline. -/
def document (formatter : Formatter) (metadata : Option Yaml.Value) (source : Source)
    (tree : Tree) : Layout :=
  FrontMatter.layout metadata ++
    .through (.trim Bytes.newline 0) (formatter.body source tree) ++ .newline

/-- A document comes out whole or not at all. -/
def render (formatter : Formatter) (metadata : Option Yaml.Value) (source : Source)
    (tree : Tree) : Except RenderError Bytes :=
  let outcome := (formatter.document metadata source tree).run Buffer.empty
  match outcome.failure with
  | some error => .error error.inDocument
  | none => .ok (Sink.contents outcome.state)

def format (formatter : Formatter) (source : Source) (events : EventStream) :
    Except FormatError Bytes :=
  match Parsed.ofEvents source events with
  | .error cause => .error (.build cause)
  | .ok parsed =>
      match formatter.render parsed.metadata source parsed.tree with
      | .error cause => .error (.render cause)
      | .ok bytes => .ok bytes

end Formatter

end CanonicalMarkdown.Render
