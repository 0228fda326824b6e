import CanonicalMarkdown.Render.Layout

namespace CanonicalMarkdown.Render.FrontMatter

/-! Front matter stands before the document, between two delimiter lines and above a blank line. -/

def delimiter : String := "---\n"

/-- Whether there is nothing worth writing. -/
def isVacant : Yaml.Value → Bool
  | .null => true
  | .mapping entries => entries.isEmpty
  | _ => false

def block (yaml : String) : Layout :=
  .text delimiter ++ .text yaml ++ .when (!(Bytes.ofText yaml).endsLine) .newline ++
    .text delimiter ++ .newline

def layout : Option Yaml.Value → Layout
  | none => .done
  | some value =>
      if isVacant value then .done
      else match value.print with
        | .ok yaml => block yaml
        | .error cause => .fail (.encoding value.kindName cause)

end CanonicalMarkdown.Render.FrontMatter
