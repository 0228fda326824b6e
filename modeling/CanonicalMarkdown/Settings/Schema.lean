import CanonicalMarkdown.Render.Options
import CanonicalMarkdown.Settings.Error

namespace CanonicalMarkdown.Settings

open Toml

/-! What a settings file may say. Names that are not known are passed over. -/

structure Stated where
  options : Render.Options := {}
  extensions : Option (List String) := none
  ignore : Option (List String) := none
  deriving DecidableEq, Repr

namespace Stated

/-- A group is a table, or an array of the values of its fields in their fixed order. A moment in
time is a group that states nothing. -/
def field (group name : String) (position : Nat) : Value → Except SettingsError (Option Value)
  | .table entries => .ok (entries.lookup name)
  | .array items => .ok items[position]?
  | .moment _ => .ok none
  | _ => .error (.wrongType group)

def boolean (field : String) : Option Value → Except SettingsError Bool
  | none => .ok false
  | some (.boolean value) => .ok value
  | some _ => .error (.wrongType field)

def texts (field : String) : List Value → Except SettingsError (List String)
  | [] => .ok []
  | .string text :: rest => do return text :: (← texts field rest)
  | _ :: _ => .error (.wrongType field)

def textList (field : String) : Option Value → Except SettingsError (Option (List String))
  | none => .ok none
  | some (.array items) => do return some (← texts field items)
  | some _ => .error (.wrongType field)

def readOptions : Option Value → Except SettingsError Render.Options
  | none => .ok {}
  | some group => do
      let hardWraps ← boolean "render.hard_wraps" (← field "render" "hard_wraps" 0 group)
      let terminalStyling ←
        boolean "render.terminal_styling" (← field "render" "terminal_styling" 1 group)
      return { hardWraps, terminalStyling }

def readFiles (options : Render.Options) : Option Value → Except SettingsError Stated
  | none => .ok { options }
  | some group => do
      let extensions ← textList "files.extensions" (← field "files" "extensions" 0 group)
      let ignore ← textList "files.ignore" (← field "files" "ignore" 1 group)
      return { options, extensions, ignore }

def ofValue (value : Value) : Except SettingsError Stated := do
  let options ← readOptions (← field "settings" "render" 0 value)
  readFiles options (← field "settings" "files" 1 value)

end Stated

end CanonicalMarkdown.Settings
