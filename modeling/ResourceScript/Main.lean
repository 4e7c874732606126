import ResourceScript.Session
import Std.Time.DateTime.Timestamp
/-!
# The command line

The outer layer of the program. It loads the files below the working directory, runs a session on
them, writes what the session wrote, and puts the files that changed back. The files of a session are
those below the working directory; no server answers.
-/

set_option autoImplicit false

namespace ResourceScript.CommandLine

/-- The text of an absolute path. -/
def pathText (path : FilePath) : String :=
  "/" ++ "/".intercalate path

/-- The bytes of a file. -/
def bytesOf (content : ByteArray) : List UInt8 :=
  content.toList

/-- The entries of a directory entry and of everything below it. -/
partial def load (directory : FilePath) (entry : IO.FS.DirEntry) :
    IO (List (FilePath × FileEntry)) := do
  let path := directory ++ [entry.fileName]
  if ← entry.path.isDir then
    let below ← (← entry.path.readDir).toList.mapM (load path)
    return (path, .directory) :: below.flatten
  else
    try
      return [(path, .file (bytesOf (← IO.FS.readBinFile (pathText path))))]
    catch _ => return []

/-- The file system of the working directory. -/
def loadFiles : IO FileSystem := do
  let current ← IO.currentDir
  let work := Location.pathNames current.toString.toList
  let home := Location.pathNames ((← IO.getEnv "HOME").getD "/").toList
  let entries ← (← current.readDir).toList.mapM (load work)
  let around := (FileSystem.beginnings work ++ FileSystem.beginnings home).eraseDups
  return ⟨around.map (fun path => (path, .directory)) ++ entries.flatten, work, home⟩

/-- Puts back the files that differ between two file systems. -/
def storeFiles (before after : FileSystem) : IO Unit := do
  for (path, entry) in before.entries do
    if (after.entry? path).isNone then
      match entry with
      | .file _ => IO.FS.removeFile (pathText path)
      | .directory => IO.FS.removeDirAll (pathText path)
  for (path, entry) in after.entries do
    if before.entry? path != some entry then
      match entry with
      | .file bytes => IO.FS.writeBinFile (pathText path) (ByteArray.mk bytes.toArray)
      | .directory => IO.FS.createDirAll (pathText path)

/-- The present moment of the calendar. -/
def present : IO Moment := do
  let now := (← Std.Time.Timestamp.now).toNanosecondsSinceUnixEpoch
  return (Moment.epoch.addMicroseconds (now.toInt / 1000)).getD Moment.epoch

/-- The world in which a session starts. -/
def start : IO World := do
  return {
    store := .empty
    registry := Builtin.registry
    classes := []
    current := none
    files := ← loadFiles
    replies := []
    requests := []
    output := []
    errors := []
    warnings := []
    debug := (← IO.getEnv "REXL_DEBUG") == some "1"
    now := ← present }

/-- Runs a script, writes what it has to say and stores the files that it changed. -/
def run {α : Type} (w : World) (script : Script α) : IO (Except Stop α × World) := do
  let (result, after) := (script.run { w with now := ← present }).run
  let output ← IO.getStdout
  output.putStr (String.join after.output.reverse)
  output.flush
  IO.eprint (String.join after.errors.reverse)
  for warning in after.warnings.reverse do
    IO.eprintln warning.text
  storeFiles w.files after.files
  return (result, { after with output := [], errors := [], warnings := [] })

/-- The status with which the program ends. -/
def statusOf (result : Except Stop Int) : IO UInt32 := do
  match result with
  | .ok status => return UInt32.ofNat (status % 256).toNat
  | .error (.exit status) => return UInt32.ofNat (status % 256).toNat
  | .error (.fault cause) =>
    IO.eprintln cause.report
    return 1
  | .error .exhausted =>
    IO.eprintln Fault.recursion.report
    return 1

/-- Answers lines until there are no more. -/
partial def answerLines (scope : Nat) (w : World) : IO UInt32 := do
  let (_, w) ← run w Script.prompt
  let line ← (← IO.getStdin).getLine
  if line.isEmpty then
    discard (run w Script.takeLeave)
    return 0
  let (result, w) ← run w (Script.answerLine scope line)
  match result with
  | .ok true => answerLines scope w
  | .ok false => return 0
  | .error stop => statusOf (.error stop)

end ResourceScript.CommandLine

open ResourceScript ResourceScript.CommandLine

/-- Runs the script of the first argument, the arguments as one line, or a line session. -/
def main (arguments : List String) : IO UInt32 := do
  let w ← start
  if arguments.isEmpty then
    let (result, w) ← CommandLine.run w do
      let scope ← Script.openSession [] [] []
      Script.greet
      return scope
    match result with
    | .ok scope => answerLines scope w
    | .error stop => statusOf (.error stop)
  else
    let (result, _) ← CommandLine.run w (Script.commandLine arguments [])
    statusOf result
