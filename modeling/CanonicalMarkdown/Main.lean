import CanonicalMarkdown.Command.Run
import CanonicalMarkdown.Document.Prose

namespace CanonicalMarkdown.Program

open Files Command

/-! The program: a snapshot of what the command needs, the command, and what it leaves behind. -/

/-- What cannot be read is taken for missing. -/
def entryAt (location : Location) : IO (Option Entry) := do
  try
    let path ← IO.FS.realPath location.path.text
    if ← path.isDir then return some .directory
    return some (.file (← IO.FS.readBinFile path).data.toList)
  catch _ => return none

abbrev Snapshot := List (Location × Option Entry)

def snapshot (locations : List Location) : IO Snapshot :=
  locations.mapM fun location => return (location, ← entryAt location)

def Snapshot.files (snapshot : Snapshot) : FileSystem :=
  ⟨fun location => (snapshot.lookup location).join⟩

/-- Opening a file for writing tells whether it can be replaced. -/
def obstacleAt (location : Location) : IO (Option FileError) := do
  try
    let _ ← IO.FS.Handle.mk location.path.text .readWrite
    return none
  catch
    | .permissionDenied .. => return some .permissionDenied
    | _ => return some .readOnly

/-- Only a file that is there can have something in its way. -/
def obstacles (snapshot : Snapshot) : IO (List (Location × Option FileError)) :=
  snapshot.mapM fun (location, entry) =>
    match entry with
    | some (.file _) => return (location, ← obstacleAt location)
    | _ => return (location, none)

def observe (names : List String) : IO Settings.Environment := do
  let values ← names.mapM fun name => return (name, ← IO.getEnv name)
  return ⟨fun name => (values.lookup name).join⟩

/-- The user that a process belongs to, by number. -/
def userOf? (status : String) : Option String :=
  (status.splitOn "\n").findSome? fun line =>
    match line.splitOn "\t" with
    | "Uid:" :: user :: _ => some user
    | _ => none

def homeOf? (users user : String) : Option String :=
  (users.splitOn "\n").findSome? fun line =>
    match line.splitOn ":" with
    | [_, _, number, _, _, home, _] => if number = user ∧ home ≠ "" then some home else none
    | _ => none

def recordedHome : IO (Option String) := do
  try
    let user := userOf? (← IO.FS.readFile "/proc/self/status")
    let users ← IO.FS.readFile "/etc/passwd"
    return user.bind (homeOf? users)
  catch _ => return none

partial def readAll (stream : IO.FS.Stream) (collected : ByteArray) : IO ByteArray := do
  let chunk ← stream.read 65536
  if chunk.isEmpty then return collected else readAll stream (collected ++ chunk)

def readInput (invocation : Invocation) : IO Bytes :=
  if invocation.task = .format false ∧ invocation.files.isEmpty then
    return (← readAll (← IO.getStdin) ByteArray.empty).data.toList
  else
    return []

/-- Writes the files that the command changed. -/
def store (before : Snapshot) (after : FileSystem) : IO Unit :=
  for (location, entry) in before do
    match after.entry? location with
    | some (.file contents) =>
        if entry ≠ some (.file contents) then
          IO.FS.writeBinFile location.path.text ⟨contents.toArray⟩
    | _ => pure ()

def present (report : Report) : IO UInt32 := do
  let output ← IO.getStdout
  output.write ⟨report.output.toArray⟩
  output.flush
  for message in report.messages do
    IO.eprintln message
  return report.code.toUInt32

def ownVariables : List String := ["HOME", "MDFMT_CONFIG"]

/-- Looks at the places the command may read, and at the variables its settings mention. -/
def carryOut (directory : Location) (invocation : Invocation) : IO UInt32 := do
  let settingsFiles := invocation.settingsFile.toList ++ Settings.candidates directory
  let paths := settingsFiles ++ invocation.files
  let snapshot ← snapshot (paths.flatMap fun path => path.locations directory)
  let files := snapshot.files
  let mentioned := settingsFiles.flatMap fun path =>
    match files.read directory path with
    | .ok content => Settings.mentioned content
    | .error _ => []
  let environment ← observe (ownVariables ++ mentioned)
  let home := .ofRecord environment (← recordedHome)
  let obstacles ← if invocation.task = .format true then obstacles snapshot else pure []
  let obstacle? := fun location => (obstacles.lookup location).join
  let session : Session :=
    { surroundings := { files, directory, environment, home, obstacle? }
      input := ← readInput invocation
      events := Document.Prose.read }
  let report := run session (.run invocation)
  store snapshot report.files
  present report

def start (arguments : List String) : IO UInt32 := do
  let directory := (Path.mk (← IO.currentDir).toString).names
  let environment ← observe ownVariables
  match Request.read environment arguments with
  | .error error =>
      IO.eprintln ("error: " ++ error.message)
      return 2
  | .ok .version =>
      IO.print versionText
      return 0
  | .ok (.run invocation) => carryOut directory invocation

end CanonicalMarkdown.Program

def main (arguments : List String) : IO UInt32 := CanonicalMarkdown.Program.start arguments
