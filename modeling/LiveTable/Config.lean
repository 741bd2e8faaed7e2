import LiveTable.Environment
import LiveTable.Power
import LiveTable.Text.Blank
import LiveTable.Yaml.Node

/-!
# Configurations

A configuration says where the database is and how it is opened. It is written as a YAML mapping;
what it does not mention keeps its default, and names that mean nothing are passed over. A name that
means something must not occur twice.
-/

namespace LiveTable

/-- How the database keeps what a change may have to undo. -/
inductive JournalMode
  | wal
  | delete
  | truncate
  | memory
  deriving DecidableEq

/-- The word for a journal mode. -/
def JournalMode.name : JournalMode → String
  | .wal => "wal"
  | .delete => "delete"
  | .truncate => "truncate"
  | .memory => "memory"

/-- The journal mode of a word. -/
def JournalMode.ofName? (name : String) : Option JournalMode :=
  [wal, delete, truncate, memory].find? (·.name = name)

/-- How much is logged: each level logs also what the levels before it log. -/
inductive LogLevel
  | error
  | warn
  | info
  | debug
  | trace
  deriving DecidableEq

namespace LogLevel

/-- All levels, from the quietest on. -/
def all : List LogLevel := [.error, .warn, .info, .debug, .trace]

/-- The word for a level. -/
def name : LogLevel → String
  | .error => "error"
  | .warn => "warn"
  | .info => "info"
  | .debug => "debug"
  | .trace => "trace"

/-- The number of a level, from one on; a plus sign may stand in front. -/
def ofNumber? (text : String) : Option LogLevel := do
  let digits := match text.toList with
    | '+' :: rest => rest
    | cs => cs
  let n ← Text.numeral? 10 digits
  if n = 0 then none else all[n - 1]?

/-- The level of a word in letters of either case, or of a number. -/
def parse? (text : String) : Option LogLevel :=
  (ofNumber? text).orElse fun _ => all.find? fun level => Text.sameName level.name text

end LogLevel

/-- How the store is opened. -/
structure Config where
  /-- The path of the database. -/
  database : String
  journalMode : JournalMode
  /-- How long to wait for a database that is locked, in milliseconds. -/
  busyTimeout : UInt64
  foreignKeys : Bool
  /-- The level of logging, as it is written. -/
  logLevel : String
  deriving DecidableEq

namespace Config

/-- The configuration of an environment that says nothing. -/
def default (env : Environment) : Config where
  database := env.databasePath
  journalMode := .wal
  busyTimeout := 5000
  foreignKeys := true
  logLevel := "warn"

/-- The text of an invalid level of logging. -/
def levelMessage (config : Config) : String := "Invalid log level: " ++ config.logLevel

/-! ## Reading fields -/

/-- A scalar may stand for a value that is not a text: it is written plainly, or as a literal block
with the tag of such values. -/
def isBare (kind : String) (style : Yaml.Style) (tag : Option String) : Bool :=
  style == .plain || (style == .literal && tag == some ("tag:yaml.org,2002:" ++ kind))

/-- A truth value. -/
def readBool? : Yaml.Node → Option Bool
  | .scalar style tag text =>
    if !isBare "bool" style tag then none
    else if ["true", "True", "TRUE"].contains text then some true
    else if ["false", "False", "FALSE"].contains text then some false
    else none
  | _ => none

/-- Digits that are not a number: more than one, with a zero in front. -/
def isPadded : List Char → Bool
  | '0' :: c :: rest => (c :: rest).all Char.isDigit
  | _ => false

/-- The number that a plain text stands for: decimal without zeros in front, or in base sixteen,
eight or two with a mark in front. -/
def unsigned? (text : String) : Option Nat :=
  match text.toList with
  | '+' :: cs => body cs
  | cs => body cs
where
  body : List Char → Option Nat
  | '0' :: 'x' :: cs => Text.numeral? 16 cs
  | '0' :: 'o' :: cs => Text.numeral? 8 cs
  | '0' :: 'b' :: cs => Text.numeral? 2 cs
  | cs => if isPadded cs then none else Text.numeral? 10 cs

/-- A number that sixty-four bits hold. -/
def readUnsigned? : Yaml.Node → Option UInt64
  | .scalar style tag text => do
    if !isBare "int" style tag then none
    else
      let n ← unsigned? text
      if n < pow2 64 then some (UInt64.ofNat n) else none
  | _ => none

/-- A scalar that stands for nothing. -/
def isNull (text : String) : Bool := ["", "~", "null", "Null", "NULL"].contains text

/-- A journal mode: its word, or its word as the tag of nothing. -/
def readMode? : Yaml.Node → Option JournalMode
  | .scalar _ none text => JournalMode.ofName? text
  | .scalar .plain (some tag) text =>
    if isNull text && Text.beginsWith "!" tag then
      JournalMode.ofName? (String.ofList (tag.toList.drop 1))
    else none
  | _ => none

/-- The value of a field: its default if the field is missing. -/
def field? {α : Type} (fields : List (String × Yaml.Node)) (name : String)
    (read : Yaml.Node → Option α) (default : α) : Option α :=
  match fields.filter (·.1 = name) with
  | [] => some default
  | [(_, node)] => read node
  | _ => none

/-- The configuration of a mapping, with defaults. -/
def ofFields? (base : Config) (fields : List (String × Yaml.Node)) : Option Config := do
  some {
    database := ← field? fields "database" Yaml.Node.text? base.database
    journalMode := ← field? fields "journal_mode" readMode? base.journalMode
    busyTimeout := ← field? fields "busy_timeout_ms" readUnsigned? base.busyTimeout
    foreignKeys := ← field? fields "foreign_keys" readBool? base.foreignKeys
    logLevel := ← field? fields "log_level" Yaml.Node.text? base.logLevel }

/-- The configuration of a document, with defaults. A document that is missing or empty says
nothing. -/
def ofDocument? (base : Config) : Option Yaml.Node → Option Config
  | none => some base
  | some (.scalar .plain _ "") => some base
  | some (.mapping _ entries) => do
    ofFields? base (← entries.mapM fun (key, node) => key.text?.map (·, node))
  | some _ => none

/-- The configuration that a text writes, with defaults. -/
def read? (base : Config) (text : String) : Option Config := do
  ofDocument? base (← Yaml.Node.read? text)

end Config

end LiveTable
