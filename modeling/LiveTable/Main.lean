import LiveTable.CommandLine.Report
import LiveTable.Database.Archive
import Std.Time.DateTime.Timestamp

/-!
# The program

Reads the environment and those places of the disk that the command line is about, runs the command
line, and writes what has changed.
-/

namespace LiveTable.Program

/-- What a text in a file is. -/
def entryOfText (text : String) : Entry :=
  match Database.Content.restore? text with
  | some content => .database content
  | none => .text text

/-- What stands at a path; what may be read and cannot is a directory. -/
def entryAt? (path : String) : IO (Option Entry) := do
  try
    return some (entryOfText (← IO.FS.readFile path))
  catch
    | .noFileOrDirectory .. => return none
    | .permissionDenied .. => return some .closed
    | _ => return some .directory

/-- The disk with what stands at a path and on the way to it. -/
def observe (env : Environment) (disk : Disk) (path : String) : IO Disk := do
  let working := env.workingDirectory
  let mut disk := disk
  for place in Path.parents working path ++ [Path.place working path] do
    match ← entryAt? ("/" ++ Disk.pathOf place) with
    | some entry => disk := disk.put place entry
    | none => pure ()
  return disk

/-- Write what has changed on the disk. -/
def commit (before after : Disk) : IO Unit := do
  for (path, entry) in after.entries do
    if before.get? path ≠ some entry then
      match entry with
      | .directory => IO.FS.createDirAll ("/" ++ path)
      | .text text => IO.FS.writeFile ("/" ++ path) text
      | .database content => IO.FS.writeFile ("/" ++ path) content.archive
      | .closed => pure ()

/-- The environment of the process. -/
def environment : IO Environment := do
  return {
    home := ← IO.getEnv "HOME"
    accountHome := none
    dataHome := ← IO.getEnv "XDG_DATA_HOME"
    configHome := ← IO.getEnv "XDG_CONFIG_HOME"
    workingDirectory := (← IO.currentDir).toString }

/-- The time in milliseconds. -/
def now : IO Int64 := do
  return Int64.ofInt (← Std.Time.Timestamp.now).toMillisecondsSinceUnixEpoch.val

/-- The disk as far as an invocation is about it: its configuration, and then the database that is
configured. -/
def diskOf (env : Environment) (i : CommandLine.Invocation) : IO Disk := do
  let mut disk : Disk := Ordered.empty
  for path in (i.config.orElse fun _ => env.configPath?).toList do
    disk ← observe env disk path
  match i.loadConfig env disk with
  | .ok config => observe env disk config.database
  | .error _ => return disk

end LiveTable.Program

open LiveTable in
/-- Run a command line. -/
def main (arguments : List String) : IO UInt32 := do
  let env ← Program.environment
  let disk ← match CommandLine.Invocation.read? arguments with
    | some i => Program.diskOf env i
    | none => pure Ordered.empty
  let (report, changed) := CommandLine.run env (← Program.now) disk arguments
  Program.commit disk changed
  for line in report.lines do
    IO.println line
  match report.error with
  | some message => IO.eprintln ("Error: " ++ message)
  | none => pure ()
  return report.code.toUInt32
