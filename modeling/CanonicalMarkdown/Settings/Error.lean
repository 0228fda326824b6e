import CanonicalMarkdown.Files.FileSystem
import CanonicalMarkdown.Toml.Value

namespace CanonicalMarkdown.Settings

open Files

inductive SettingsError where
  | notFound (path : Path)
  | unreadable (cause : FileError)
  | malformed (cause : Toml.ReadError)
  | wrongType (field : String)
  | unsetVariable (field name : String)
  | noExtensions
  | emptyExtension
  deriving DecidableEq, Repr

namespace SettingsError

def message : SettingsError → String
  | .notFound path => "Configuration file not found: " ++ path.text
  | .unreadable cause => "I/O error: " ++ cause.message
  | .malformed cause => "TOML parse error: " ++ cause.message
  | .wrongType field => "TOML parse error: invalid type for " ++ field
  | .unsetVariable field name =>
      "Environment variable error in " ++ field ++ ": $\x7b" ++ name ++ "\x7d not set"
  | .noExtensions => "Configuration error: files.extensions must list at least one extension"
  | .emptyExtension => "Configuration error: files.extensions cannot be empty"

end SettingsError

end CanonicalMarkdown.Settings
