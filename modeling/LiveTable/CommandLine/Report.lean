import LiveTable.CommandLine.Invocation
import LiveTable.Disk.Connection
import LiveTable.Session.Run

/-!
# Reports

What running a command line shows: lines, or an error, and a code that tells how it ended. The
configuration is read first, then the level of logging is checked unless the command line gives it,
then the store is opened, and at last the command runs.
-/

namespace LiveTable.CommandLine

/-- What running a command line shows. -/
structure Report where
  code : Nat
  lines : List String
  error : Option String
  deriving DecidableEq

namespace Report

/-- A run that ends well. -/
def ok (lines : List String) : Report := ⟨0, lines, none⟩

/-- A run that ends with an error. -/
def failed (message : String) : Report := ⟨1, [], some message⟩

/-- A command line that is not understood. -/
def misuse : Report := ⟨2, [], none⟩

/-- A store that cannot be opened. -/
def ofOpenError : OpenError → Report
  | .timeoutRange => ⟨101, [], none⟩
  | e => failed e.message

/-- The message of a command that fails. -/
def failureMessage : Failure → String
  | .store e => e.message
  | .pair e => "Invalid column list: " ++ e.message
  | .json text => "Invalid JSON: " ++ text
  | .notARow => "Row data must be a JSON object of scalar values"
  | .opening e => e.message
  | .noHandle => "No such handle"
  | .unknownCommand => "No such command"

/-- The line of a table. -/
def tableLine (t : TableInfo) : String := t.name ++ " (" ++ t.kind ++ ")"

/-- The line of a column. -/
def columnLine (c : ColumnInfo) : String :=
  c.name ++ " " ++ c.declaredType ++ (if 0 < c.primaryKey then " PRIMARY KEY" else "")
    ++ (if c.notNull then " NOT NULL" else "")

/-- The line of a command that has no result of its own. -/
def doneLines : Command → List String
  | .createTable table _ => ["Created table " ++ table]
  | .addColumns table columns =>
    let size := match columns.read with
      | .ok spec => spec.size
      | .error _ => 0
    ["Added " ++ toString size ++ " column(s) to " ++ table]
  | .createIndex table column => ["Index ready: idx_" ++ table ++ "_" ++ column]
  | .dropTable table => ["Dropped table " ++ table]
  | _ => []

/-- The word for what a counted change did. -/
def countWord : Command → String
  | .update .. => "Updated "
  | _ => "Deleted "

/-- What the outcome of a command shows. -/
def ofOutcome (command : Command) : Outcome → Report
  | .failed f => failed (failureMessage f)
  | .done => ok (doneLines command)
  | .tables tables => ok (tables.map tableLine)
  | .columns columns =>
    match command, columns with
    | .schema table, [] => failed ("Table not found: " ++ table)
    | _, columns => ok (columns.map columnLine)
  | .flag true => ok ["Schema valid"]
  | .flag false => ⟨1, ["Schema missing columns"], none⟩
  | .inserted id _ => ok ["Inserted row " ++ toString id.toInt]
  | .count n => ok [countWord command ++ toString n ++ " row(s)"]
  | .rows rows => ok (rows.map fun row => (Row.toJson row).write)
  | .text text => ok [text]
  | .query _ | .watch _ _ => ok []

end Report

namespace Invocation

/-- The configuration of an invocation. -/
def loadConfig (env : Environment) (disk : Disk) (i : Invocation) : Except OpenError Config := do
  let config ← match i.config with
    | some path => Config.load env disk path
    | none => Config.loadUsual env disk
  .ok { config with database := i.database.getD config.database }

/-- The invocation can say how much is logged. -/
def hasLevel (config : Config) (i : Invocation) : Bool :=
  0 < i.verbosity || (LogLevel.parse? config.logLevel).isSome

/-- Run an invocation at a time: what it shows, and the disk behind it. -/
def run (env : Environment) (now : Int64) (disk : Disk) (i : Invocation) : Report × Disk :=
  match i.loadConfig env disk with
  | .error e => (.ofOpenError e, disk)
  | .ok config =>
    if !i.hasLevel config then (.failed config.levelMessage, disk)
    else
      match Connection.connect env disk config with
      | .error e => (.ofOpenError e, disk)
      | .ok connection =>
        let session := (Session.start connection false now).give Connection.backend i.command
        (.ofOutcome i.command session.outcome, session.storage.close)

end Invocation

/-- Run a command line at a time. -/
def run (env : Environment) (now : Int64) (disk : Disk) (arguments : List String) :
    Report × Disk :=
  match Invocation.read? arguments with
  | none => (.misuse, disk)
  | some i => i.run env now disk

end LiveTable.CommandLine
