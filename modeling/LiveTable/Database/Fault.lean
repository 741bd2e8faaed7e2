import LiveTable.Statement
import LiveTable.Text.Blank

/-!
# Faults of statements

Why a statement fails, and the message for it. Some messages end with the text of the statement and
the byte offset of the word that is at fault. Reserved words cannot be names.
-/

namespace LiveTable.Database

/-- Why a statement fails. -/
inductive Fault
  | noSuchTable (name : String)
  /-- With the byte offset of the name, where it is told. -/
  | noSuchColumn (name : String) (offset : Option Nat)
  | noInsertColumn (table column : String)
  | unique (table column : String)
  | notNull (table column : String)
  /-- A row number that is no integer. -/
  | mismatch
  | duplicateColumn (name : String)
  | manyPrimaryKeys (table : String)
  | badAutoincrement
  | addPrimaryKey
  | addNotNull
  | syntaxNear (word : String) (offset : Nat)
  | incomplete
  /-- An index on a word that stands for the time, with the byte offset of the word. -/
  | unsteadyIndex (offset : Nat)
  | reservedName (name : String)
  | notDroppable (table : String)
  | notModifiable (table : String)
  | notIndexable (table : String)
  | notAlterable (table : String)
  | indexExists (name : String)
  | tableExists (name : String)
  /-- There is no greater row number. -/
  | full
  /-- Values do not fit the placeholders. -/
  | parameterCount (given needed : Nat)
  deriving DecidableEq

/-- A message that points into the text of a statement. -/
def located (message text : String) (offset : Nat) : String :=
  message ++ " in " ++ text ++ " at offset " ++ toString offset

/-- The message of a fault of a statement. -/
def Fault.message (text : String) : Fault → String
  | .noSuchTable name => "no such table: " ++ name
  | .noSuchColumn name none => "no such column: " ++ name
  | .noSuchColumn name (some offset) => located ("no such column: " ++ name) text offset
  | .noInsertColumn table column => "table " ++ table ++ " has no column named " ++ column
  | .unique table column => "UNIQUE constraint failed: " ++ table ++ "." ++ column
  | .notNull table column => "NOT NULL constraint failed: " ++ table ++ "." ++ column
  | .mismatch => "datatype mismatch"
  | .duplicateColumn name => "duplicate column name: " ++ name
  | .manyPrimaryKeys table => "table \"" ++ table ++ "\" has more than one primary key"
  | .badAutoincrement => "AUTOINCREMENT is only allowed on an INTEGER PRIMARY KEY"
  | .addPrimaryKey => "Cannot add a PRIMARY KEY column"
  | .addNotNull => "Cannot add a NOT NULL column with default value NULL"
  | .syntaxNear word offset => located ("near \"" ++ word ++ "\": syntax error") text offset
  | .incomplete => "incomplete input"
  | .unsteadyIndex offset =>
    located "non-deterministic functions prohibited in index expressions" text offset
  | .reservedName name => "object name reserved for internal use: " ++ name
  | .notDroppable table => "table " ++ table ++ " may not be dropped"
  | .notModifiable table => "table " ++ table ++ " may not be modified"
  | .notIndexable table => "table " ++ table ++ " may not be indexed"
  | .notAlterable table => "table " ++ table ++ " may not be altered"
  | .indexExists name => "there is already an index named " ++ name
  | .tableExists name => "there is already a table named " ++ name
  | .full => "database or disk is full"
  | .parameterCount given needed =>
    "Wrong number of parameters passed to query. Got " ++ toString given ++ ", needed "
      ++ toString needed

/-- The words that cannot be names, in small letters. -/
def reservedWords : List String :=
  ["add", "all", "alter", "and", "as", "autoincrement", "between", "case", "check", "collate",
    "commit", "constraint", "create", "default", "deferrable", "delete", "distinct", "drop", "else",
    "escape", "except", "exists", "foreign", "from", "group", "having", "in", "index", "insert",
    "intersect", "into", "is", "isnull", "join", "limit", "not", "nothing", "notnull", "null", "on",
    "or", "order", "primary", "references", "returning", "select", "set", "table", "then", "to",
    "transaction", "union", "unique", "update", "using", "values", "when", "where"]

/-- The word cannot be a name. -/
def isReserved (name : String) : Bool := reservedWords.contains (Text.lower name)

/-- The word stands for the time where a value is asked for, even if there is a column of this
name. -/
def isTimeWord (name : String) : Bool :=
  ["current_time", "current_date", "current_timestamp"].contains (Text.lower name)

/-- The word stands for a value of its own unless there is a column of this name. -/
def isConstantWord (name : String) : Bool := ["null", "true", "false"].contains (Text.lower name)

/-- The first piece of a statement that is a reserved word where a name is due, given the bytes in
front of the pieces. -/
def syntaxFault (before : Nat) : List Statement.Piece → Option Fault
  | [] => none
  | .name _ name :: rest =>
    if isReserved name then some (.syntaxNear name before)
    else syntaxFault (before + name.utf8ByteSize) rest
  | .word word :: rest => syntaxFault (before + word.utf8ByteSize) rest

end LiveTable.Database
