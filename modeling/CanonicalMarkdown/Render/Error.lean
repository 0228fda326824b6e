import CanonicalMarkdown.Document.Node
import CanonicalMarkdown.Output.Writer
import CanonicalMarkdown.Yaml.Printer

namespace CanonicalMarkdown.Render

open Document Output

inductive RenderError where
  /-- Front matter of the named kind has no written form. -/
  | encoding (kind : String) (cause : Yaml.PrintError)
  | write (cause : WriteError)
  | unsupportedEmphasis (level : Nat)
  /-- Overrides that delegate to one another in a circle. -/
  | circularOverride (kind : Kind)
  | document (cause : RenderError)

namespace RenderError

def message : RenderError → String
  | .encoding kind cause => "encoding " ++ kind ++ ": " ++ cause.message
  | .write cause => cause.message
  | .unsupportedEmphasis level => "unsupported emphasis level " ++ toString level
  | .circularOverride kind => "override of " ++ kind.name ++ " never returns"
  | .document cause => "rendering document: " ++ cause.message

/-- The error as a failure of the whole document, named as such once. -/
def inDocument : RenderError → RenderError
  | .document cause => .document cause
  | error => .document error

def cause : RenderError → RenderError
  | .document inner => inner.cause
  | error => error

end RenderError

end CanonicalMarkdown.Render
