import CanonicalMarkdown.Settings.Load

namespace CanonicalMarkdown.Command

open Files

/-! What the command line asks for. -/

inductive Task where
  | format (write : Bool)
  | check
  deriving DecidableEq, Repr

structure Invocation where
  task : Task
  files : List Path
  settingsFile : Option Path
  preferences : Settings.Preferences
  /-- Whether to tell more about the run in its log, which is no part of the report. -/
  verbose : Bool
  deriving DecidableEq, Repr

inductive Request where
  | version
  | run (invocation : Invocation)
  deriving DecidableEq, Repr

inductive UsageError where
  | missingCommand
  | unknownCommand (name : String)
  | unknownOption (option : String)
  | repeatedOption (option : String)
  | missingValue (option : String)
  | unexpectedValue (option : String)
  | emptyValue
  | missingFiles
  deriving DecidableEq, Repr

def UsageError.message : UsageError → String
  | .missingCommand => "a command is required: format or check"
  | .unknownCommand name => "unrecognized command '" ++ name ++ "'"
  | .unknownOption option => "unexpected argument '" ++ option ++ "'"
  | .repeatedOption option => "'" ++ option ++ "' cannot be used multiple times"
  | .missingValue option => "a value is required for '" ++ option ++ "'"
  | .unexpectedValue option => "'" ++ option ++ "' takes no value"
  | .emptyValue => "a value is empty"
  | .missingFiles => "at least one file is required"

/-! Options, by their long and short names. -/

inductive Flag where
  | verbose
  | version
  | write
  | settingsFile
  | hardWraps
  | terminal
  deriving DecidableEq, Repr

namespace Flag

def long : Flag → String
  | .verbose => "verbose"
  | .version => "version"
  | .write => "write"
  | .settingsFile => "config"
  | .hardWraps => "hard-wraps"
  | .terminal => "terminal"

def short? : Flag → Option Char
  | .verbose => some 'v'
  | .version => some 'V'
  | .write => some 'w'
  | .settingsFile => some 'c'
  | .hardWraps | .terminal => none

def spelled (flag : Flag) : String := "--" ++ flag.long

def takesValue : Flag → Bool
  | .settingsFile => true
  | _ => false

end Flag

/-- The options before the command. -/
def generalFlags : List Flag := [.verbose, .version]

inductive Verb where
  | format
  | check
  deriving DecidableEq, Repr

namespace Verb

def ofName? : String → Option Verb
  | "format" => some .format
  | "check" => some .check
  | _ => none

def flags : Verb → List Flag
  | .format => [.verbose, .write, .settingsFile, .hardWraps, .terminal]
  | .check => [.verbose, .settingsFile, .hardWraps, .terminal]

end Verb

/-- One argument, taken for itself. -/
inductive Argument where
  | plain (text : String)
  /-- Two dashes alone: all that follows is plain. -/
  | separator
  | long (name : String) (value : Option String)
  | short (letters : List Char)
  deriving DecidableEq, Repr

def Argument.ofText (text : String) : Argument :=
  match text.toList with
  | ['-', '-'] => .separator
  | '-' :: '-' :: rest =>
      let name := rest.takeWhile (· != '=')
      match rest.drop name.length with
      | _ :: value => .long (String.ofList name) (some (String.ofList value))
      | [] => .long (String.ofList name) none
  | '-' :: letter :: rest => .short (letter :: rest)
  | _ => .plain text

/-! What has been read so far. Each option may be given once. -/

structure Seen where
  flags : List Flag := []
  value : Option String := none
  files : List String := []
  deriving DecidableEq, Repr

namespace Seen

def addFlag (flag : Flag) (seen : Seen) : Except UsageError Seen :=
  if seen.flags.contains flag then .error (.repeatedOption flag.spelled)
  else .ok { seen with flags := flag :: seen.flags }

def addValue (value : String) (seen : Seen) : Except UsageError Seen :=
  if value.isEmpty then .error .emptyValue else .ok { seen with value := some value }

def addFile (file : String) (seen : Seen) : Except UsageError Seen :=
  if file.isEmpty then .error .emptyValue else .ok { seen with files := seen.files ++ [file] }

def addFiles : List String → Seen → Except UsageError Seen
  | [], seen => .ok seen
  | file :: rest, seen => do (← seen.addFile file).addFiles rest

/-- Reads letters that share a dash. The rest after an option with a value is that value. The second
result tells whether a value is still to come. -/
def addLetters (allowed : List Flag) : List Char → Seen → Except UsageError (Seen × Bool)
  | [], seen => .ok (seen, false)
  | letter :: rest, seen =>
      match allowed.find? (·.short? == some letter) with
      | none => .error (.unknownOption (String.ofList ['-', letter]))
      | some flag => do
          let seen ← seen.addFlag flag
          if flag.takesValue then
            match rest with
            | [] => return (seen, true)
            | '=' :: value => return (← seen.addValue (String.ofList value), false)
            | value => return (← seen.addValue (String.ofList value), false)
          else
            addLetters allowed rest seen

def addLong (allowed : List Flag) (name : String) (value : Option String) (seen : Seen) :
    Except UsageError (Seen × Bool) :=
  match allowed.find? (·.long == name) with
  | none => .error (.unknownOption ("--" ++ name))
  | some flag => do
      let seen ← seen.addFlag flag
      match flag.takesValue, value with
      | true, some value => return (← seen.addValue value, false)
      | true, none => return (seen, true)
      | false, some _ => throw (.unexpectedValue flag.spelled)
      | false, none => return (seen, false)

end Seen

/-- Reads what follows the command. No option is taken for a value. -/
def readArguments (allowed : List Flag) :
    (awaiting : Bool) → List String → Seen → Except UsageError Seen
  | false, [], seen => .ok seen
  | true, [], _ => .error (.missingValue Flag.settingsFile.spelled)
  | true, text :: rest, seen =>
      match Argument.ofText text with
      | .plain value => do readArguments allowed false rest (← seen.addValue value)
      | _ => .error (.missingValue Flag.settingsFile.spelled)
  | false, text :: rest, seen =>
      match Argument.ofText text with
      | .plain file => do readArguments allowed false rest (← seen.addFile file)
      | .separator => seen.addFiles rest
      | .long name value => do
          let (seen, awaiting) ← seen.addLong allowed name value
          readArguments allowed awaiting rest seen
      | .short letters => do
          let (seen, awaiting) ← seen.addLetters allowed letters
          readArguments allowed awaiting rest seen

/-- The settings file named by the environment counts when the command line names none. -/
def settingsFile (environment : Settings.Environment) (seen : Seen) :
    Except UsageError (Option Path) :=
  match seen.value, environment.value? "MDFMT_CONFIG" with
  | some value, _ => .ok (some ⟨value⟩)
  | none, some value => if value.isEmpty then .error .emptyValue else .ok (some ⟨value⟩)
  | none, none => .ok none

def invocation (environment : Settings.Environment) (verb : Verb) (verbose : Bool) (seen : Seen) :
    Except UsageError Invocation := do
  let settingsFile ← settingsFile environment seen
  let given (flag : Flag) : Option Bool := if seen.flags.contains flag then some true else none
  if verb == .check && seen.files.isEmpty then throw .missingFiles
  return {
    task := match verb with
      | .format => .format (seen.flags.contains .write)
      | .check => .check
    files := seen.files.map Path.mk
    settingsFile
    preferences := ⟨given .hardWraps, given .terminal⟩
    verbose := verbose || seen.flags.contains .verbose }

/-- Letters up to one that asks for the version; whether there was one. -/
def readGeneralLetters : List Char → Seen → Except UsageError (Seen × Bool)
  | [], seen => .ok (seen, false)
  | letter :: rest, seen => do
      let (seen, _) ← seen.addLetters generalFlags [letter]
      if seen.flags.contains .version then return (seen, true)
      else readGeneralLetters rest seen

/-- Reads the options before the command, and then what follows it. -/
def readRequest (environment : Settings.Environment) :
    List String → Seen → Except UsageError Request
  | [], _ => .error .missingCommand
  | text :: rest, seen =>
      match Argument.ofText text with
      | .plain name =>
          match Verb.ofName? name with
          | none => .error (.unknownCommand name)
          | some verb => do
              let read ← readArguments verb.flags false rest {}
              return .run (← invocation environment verb (seen.flags.contains .verbose) read)
      | .separator => .error .missingCommand
      | .long name value => do
          let (seen, _) ← seen.addLong generalFlags name value
          if seen.flags.contains .version then return .version
          else readRequest environment rest seen
      | .short letters => do
          let (seen, version) ← readGeneralLetters letters seen
          if version then return .version else readRequest environment rest seen

def Request.read (environment : Settings.Environment) (arguments : List String) :
    Except UsageError Request :=
  readRequest environment arguments {}

end CanonicalMarkdown.Command
