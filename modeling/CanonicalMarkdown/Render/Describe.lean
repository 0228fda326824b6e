import CanonicalMarkdown.Document.Describe
import CanonicalMarkdown.Render.Formatter

namespace CanonicalMarkdown.Render

open Document.Describe

/-! Descriptions of a formatter and its settings. -/

def Overrides.describe (overrides : Overrides) : String :=
  record "NodeRenderFns" [("overrides", list (overrides.kinds.map (·.name)))]

def Options.describe (options : Options) : String :=
  record "RenderOptions"
    [("hard_wraps", boolean options.hardWraps),
      ("terminal_styling", boolean options.terminalStyling)]

/-- The code formatter has no description. -/
def Formatter.describe (formatter : Formatter) : String :=
  "MarkdownFormatter \x7b overrides: " ++ formatter.overrides.describe ++ ", options: " ++
    formatter.options.describe ++ ", .. \x7d"

end CanonicalMarkdown.Render
