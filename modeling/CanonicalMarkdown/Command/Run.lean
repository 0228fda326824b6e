import CanonicalMarkdown.Command.Arguments
import CanonicalMarkdown.Render.Formatter

namespace CanonicalMarkdown.Command

open Files Output Render

inductive CommandError where
  | settings (cause : Settings.SettingsError)
  | input (cause : FileError)
  | inputFormat (cause : FormatError)
  | file (path : Path) (cause : FileError)
  | format (path : Path) (cause : FormatError)
  | unformatted (count : Nat)
  | styledWrite
  | writeWithoutFiles

def CommandError.message : CommandError → String
  | .settings cause => cause.message
  | .input cause => cause.message
  | .inputFormat cause => cause.message
  | .file path cause => path.text ++ ": " ++ cause.message
  | .format path cause => path.text ++ ": " ++ cause.message
  | .unformatted count => toString count ++ " file(s) need formatting"
  | .styledWrite => "--write cannot be combined with terminal styling"
  | .writeWithoutFiles => "--write requires at least one file"

/-- What a command works with. -/
structure Session where
  surroundings : Surroundings
  input : Bytes
  /-- Reads Markdown. -/
  events : String → Document.EventStream

/-- What a command has done so far. -/
structure Progress where
  files : FileSystem
  output : Bytes := []
  messages : List String := []
  /-- How many files differed from their canonical form. -/
  changed : Nat := 0

abbrev Doing := Action CommandError Progress

def say (message : String) : Doing := fun progress =>
  ⟨.ok (), { progress with messages := progress.messages ++ [message] }⟩

def emit (bytes : Bytes) : Doing := fun progress =>
  ⟨.ok (), { progress with output := progress.output ++ bytes }⟩

/-! Selection of files. -/

inductive Selection where
  | selected
  | ignored
  | otherKind
  deriving DecidableEq, Repr

def select (settings : Settings) (directory : Location) (path : Path) : Selection :=
  if settings.isIgnored (path.absolute directory) then .ignored
  else if settings.hasMarkdownExtension path then .selected
  else .otherKind

def selected (settings : Settings) (directory : Location) (paths : List Path) : List Path :=
  paths.filter (select settings directory · == .selected)

/-- Ignored files are passed over in silence. -/
def reportSkipped (settings : Settings) (directory : Location) : List Path → Doing
  | [] => Action.skip
  | path :: rest =>
      let report :=
        if select settings directory path = .otherKind then
          say ("Skipping " ++ path.text ++ ": not a markdown file")
        else Action.skip
      report.andThen (reportSkipped settings directory rest)

/-! Files one at a time. -/

structure Formatted where
  source : String
  canonical : Bytes

def Formatted.isCanonical (formatted : Formatted) : Bool :=
  formatted.canonical == Bytes.ofText formatted.source

def formatText (session : Session) (formatter : Formatter) (source : String) :
    Except FormatError Bytes :=
  formatter.format (Bytes.ofText source).toArray (session.events source)

def formatFile (session : Session) (formatter : Formatter) (files : FileSystem) (path : Path) :
    Except CommandError Formatted :=
  match files.read session.surroundings.directory path with
  | .error cause => .error (.file path cause)
  | .ok source =>
      match formatText session formatter source with
      | .error cause => .error (.format path cause)
      | .ok canonical => .ok { source, canonical }

/-- Formats a file as it is by now and goes on with the result. -/
def withFormatted (session : Session) (formatter : Formatter) (path : Path)
    (next : Formatted → Doing) : Doing := fun progress =>
  match formatFile session formatter progress.files path with
  | .error error => ⟨.error error, progress⟩
  | .ok formatted => next formatted progress

def printFile (session : Session) (formatter : Formatter) (path : Path) : Doing :=
  withFormatted session formatter path fun formatted => emit formatted.canonical

def noteChange : Doing := fun progress =>
  ⟨.ok (), { progress with changed := progress.changed + 1 }⟩

def replaceFile (session : Session) (path : Path) (contents : Bytes) : Doing := fun progress =>
  let { directory, obstacle?, .. } := session.surroundings
  match progress.files.write obstacle? directory path contents with
  | .error cause => ⟨.error (.file path cause), progress⟩
  | .ok files => ⟨.ok (), { progress with files }⟩

/-- A file in canonical form is not written again. -/
def formatInPlace (session : Session) (formatter : Formatter) (path : Path) : Doing :=
  withFormatted session formatter path fun formatted =>
    if formatted.isCanonical then Action.skip
    else
      (replaceFile session path formatted.canonical).andThen
        ((say ("Formatted " ++ path.text)).andThen noteChange)

def checkFile (session : Session) (formatter : Formatter) (path : Path) : Doing :=
  withFormatted session formatter path fun formatted =>
    if formatted.isCanonical then Action.skip
    else (say ("Would reformat " ++ path.text)).andThen noteChange

def forEach (action : Path → Doing) : List Path → Doing
  | [] => Action.skip
  | path :: rest => (action path).andThen (forEach action rest)

/-! The commands. -/

def formatInput (session : Session) (formatter : Formatter) : Doing :=
  match readText session.input with
  | .error cause => Action.fail (.input cause)
  | .ok source =>
      match formatText session formatter source with
      | .error cause => Action.fail (.inputFormat cause)
      | .ok canonical => emit canonical

def summarizeWrite (count : Nat) : Doing := fun progress =>
  say (toString progress.changed ++ " of " ++ toString count ++ " file(s) reformatted") progress

def summarizeCheck (count : Nat) : Doing := fun progress =>
  if 0 < progress.changed then ⟨.error (.unformatted progress.changed), progress⟩
  else say (toString count ++ " file(s) already formatted") progress

def runFormat (session : Session) (settings : Settings) (paths : List Path) : Doing :=
  let formatter : Formatter := { options := settings.options }
  let directory := session.surroundings.directory
  if paths.isEmpty then formatInput session formatter
  else
    (reportSkipped settings directory paths).andThen
      (forEach (printFile session formatter) (selected settings directory paths))

/-- Styled output is no Markdown, so it never replaces a file. -/
def runWrite (session : Session) (settings : Settings) (paths : List Path) : Doing :=
  let formatter : Formatter := { options := settings.options }
  let directory := session.surroundings.directory
  let chosen := selected settings directory paths
  if settings.options.terminalStyling then Action.fail .styledWrite
  else if paths.isEmpty then Action.fail .writeWithoutFiles
  else
    (reportSkipped settings directory paths).andThen
      ((forEach (formatInPlace session formatter) chosen).andThen (summarizeWrite chosen.length))

/-- Files are compared with plain Markdown, however output is styled. -/
def runCheck (session : Session) (settings : Settings) (paths : List Path) : Doing :=
  let formatter : Formatter := { options := { settings.options with terminalStyling := false } }
  let directory := session.surroundings.directory
  let chosen := selected settings directory paths
  (reportSkipped settings directory paths).andThen
    ((forEach (checkFile session formatter) chosen).andThen (summarizeCheck chosen.length))

def perform (session : Session) (invocation : Invocation) : Doing :=
  match Settings.load session.surroundings invocation.settingsFile invocation.preferences with
  | .error cause => Action.fail (.settings cause)
  | .ok settings =>
      match invocation.task with
      | .format false => runFormat session settings invocation.files
      | .format true => runWrite session settings invocation.files
      | .check => runCheck session settings invocation.files

/-! Reports. -/

structure Report where
  code : Nat
  output : Bytes
  messages : List String
  files : FileSystem

def Report.ofOutcome (outcome : Outcome CommandError Progress Unit) : Report :=
  let progress := outcome.state
  match outcome.failure with
  | none => ⟨0, progress.output, progress.messages, progress.files⟩
  | some error =>
      ⟨1, progress.output, progress.messages ++ ["Error: " ++ error.message], progress.files⟩

def versionText : String := "mdfmt 0.1.0\n"

def run (session : Session) : Request → Report
  | .version => ⟨0, Bytes.ofText versionText, [], session.surroundings.files⟩
  | .run invocation =>
      .ofOutcome (perform session invocation { files := session.surroundings.files })

end CanonicalMarkdown.Command
