import CanonicalMarkdown.Settings.Basic
import CanonicalMarkdown.Settings.Expansion
import CanonicalMarkdown.Settings.Schema
import CanonicalMarkdown.Toml.Reader

namespace CanonicalMarkdown

open Files Settings

/-- What a command finds around it. -/
structure Surroundings where
  files : FileSystem
  directory : Location
  environment : Environment
  home : Home environment := .ofRecord environment none
  /-- Why the file at a place cannot be replaced, if it cannot. -/
  obstacle? : Location → Option FileError := fun _ => none

namespace Surroundings

def has (surroundings : Surroundings) (path : Path) : Bool :=
  surroundings.files.has surroundings.directory path

def read (surroundings : Surroundings) (path : Path) : Except FileError String :=
  surroundings.files.read surroundings.directory path

end Surroundings

namespace Settings

def fileName : Path := ⟨"mdfmt.toml"⟩

/-- Where settings are looked for, from the directory outwards. -/
def candidates (directory : Location) : List Path :=
  directory.upwards.map fun location => location.path.join fileName

/-- The settings file of the nearest directory that has one. -/
def discover? (surroundings : Surroundings) : Option Path :=
  (candidates surroundings.directory).find? surroundings.has

def dropPoints (extension : String) : String :=
  String.ofList (extension.toList.dropWhile (· == '.'))

/-- The first entry that lacks a variable is the one reported. -/
def expandEntries {environment : Environment} (home : Home environment) :
    List String → Except SettingsError (List String)
  | [] => .ok []
  | entry :: rest =>
      match expandEntry home entry with
      | .error name => .error (.unsetVariable "files.ignore" name)
      | .ok expanded => do return expanded :: (← expandEntries home rest)

/-- Entries are seen from the directory of the settings file. -/
def resolve (path : Path) (stated : Stated) (entries : List String) : Settings :=
  let defaults : Settings := {}
  let directory := path.parent?.getD ⟨"."⟩
  { options := stated.options
    extensions := (stated.extensions.map (·.map dropPoints)).getD defaults.extensions
    ignore := entries.map fun entry => directory.join ⟨entry⟩
    file := some path }

def parse (content : String) : Except SettingsError Stated :=
  match Toml.Value.read content with
  | .error cause => .error (.malformed cause)
  | .ok value => Stated.ofValue value

/-- The variables that the entries of a settings file refer to. -/
def mentioned (content : String) : List String :=
  match parse content with
  | .error _ => []
  | .ok stated =>
      (stated.ignore.getD []).flatMap fun entry =>
        (Piece.ofChars entry.length entry.toList).filterMap Piece.name?

def loadFile (surroundings : Surroundings) (path : Path) : Except SettingsError Settings :=
  match surroundings.read path with
  | .error cause => .error (.unreadable cause)
  | .ok content => do
      let stated ← parse content
      let entries ← expandEntries surroundings.home (stated.ignore.getD [])
      let settings := resolve path stated entries
      settings.validate
      return settings

/-- A file that was asked for has to be there; otherwise the nearest one is taken, if any. -/
def loadStated (surroundings : Surroundings) : Option Path → Except SettingsError Settings
  | some path =>
      if surroundings.has path then loadFile surroundings path else .error (.notFound path)
  | none =>
      match discover? surroundings with
      | some path => loadFile surroundings path
      | none => .ok {}

def load (surroundings : Surroundings) (path : Option Path) (preferences : Preferences) :
    Except SettingsError Settings := do
  return (← loadStated surroundings path).prefer preferences

end Settings

end CanonicalMarkdown
