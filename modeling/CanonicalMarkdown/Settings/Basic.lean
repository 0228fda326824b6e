import CanonicalMarkdown.Files.Path
import CanonicalMarkdown.Settings.Error
import CanonicalMarkdown.Render.Options

namespace CanonicalMarkdown

open Files Settings

structure Settings where
  options : Render.Options := {}
  /-- Without the leading point. -/
  extensions : List String := ["md", "markdown"]
  /-- Files and directories that are left alone. -/
  ignore : List Path := []
  /-- The file the settings were read from. -/
  file : Option Path := none
  deriving DecidableEq, Repr

namespace Settings

def lowerCase (text : String) : List Char := text.toList.map Char.toLower

/-- The case of the letters a to z does not matter. -/
def hasMarkdownExtension (settings : Settings) (path : Path) : Bool :=
  match path.extension? with
  | none => false
  | some extension => settings.extensions.any (lowerCase · == lowerCase extension)

def isIgnored (settings : Settings) (path : Path) : Bool :=
  settings.ignore.any path.startsWith

def validate (settings : Settings) : Except SettingsError Unit :=
  if settings.extensions.isEmpty then .error .noExtensions
  else if settings.extensions.any String.isEmpty then .error .emptyExtension
  else .ok ()

/-- What the command line says about rendering, where it says anything. -/
structure Preferences where
  hardWraps : Option Bool := none
  terminalStyling : Option Bool := none
  deriving DecidableEq, Repr

def prefer (preferences : Preferences) (settings : Settings) : Settings :=
  { settings with
    options :=
      { hardWraps := preferences.hardWraps.getD settings.options.hardWraps
        terminalStyling :=
          preferences.terminalStyling.getD settings.options.terminalStyling } }

end Settings

end CanonicalMarkdown
