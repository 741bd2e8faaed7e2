import LiveTable.Database.Definition
import LiveTable.Database.Modification
import LiveTable.Statement.Reader
import LiveTable.Storage

/-!
# Databases

A database executes statements: the content changes, or a fault leaves it as it was. Statements
that ask about the database answer with rows.

It stands for a database where a storage has to be run. Its clock stands still; what a selection does not
sort comes in the order of record numbers, whatever indexes there are; and the tables are those of the
content and the schema, none that a function of a database library makes up. What is said of every storage
is said under assumptions on that storage, of which this one is an instance.
-/

namespace LiveTable

/-- A database with a connection to it. -/
structure Database where
  content : Database.Content
  settings : Database.Settings
  /-- The number of the record that was inserted last. -/
  lastNumber : Int64
  deriving DecidableEq

namespace Database

/-- A database in memory without tables. -/
def inMemory : Database := ⟨default, .memory, 0⟩

/-- A truth value in a row. -/
def flag (b : Bool) : Value := .integer (if b then 1 else 0)

/-- A number in a row. -/
def count (n : Nat) : Value := .integer (Int64.ofNat n)

/-- The row that describes a table. -/
def tableRow (schema name : String) (columns : Nat) : Row :=
  Ordered.ofList [("schema", .text schema), ("name", .text name), ("type", .text "table"),
    ("ncol", count columns), ("wr", flag false), ("strict", flag false)]

/-- The rows that describe all tables: those of the content, and the schemas. -/
def tableRows (c : Content) : List Row :=
  c.tables.map (fun t => tableRow "main" t.name t.columns.length)
    ++ [tableRow "main" "sqlite_schema" schemaColumns.length,
      tableRow "temp" "sqlite_temp_schema" schemaColumns.length]

/-- The row that describes a column. -/
def columnRow (position : Nat) (column : TableColumn) : Row :=
  Ordered.ofList [("cid", count position), ("name", .text column.name),
    ("type", .text column.declared), ("notnull", flag column.notNull), ("dflt_value", .null),
    ("pk", flag column.primaryKey)]

/-- The rows that describe the columns of a table; none if there is no such table. -/
def columnRows (c : Content) (table : String) : List Row :=
  match c.find? table with
  | none => []
  | some t => t.columns.zipIdx.map fun (column, i) => columnRow i column

/-- The row that tells a setting. -/
def settingRow (settings : Settings) : Setting → Row
  | .journalMode => Ordered.ofList [("journal_mode", .text settings.journalMode)]
  | .busyTimeout => Ordered.ofList [("timeout", count settings.busyTimeout)]
  | .foreignKeys => Ordered.ofList [("foreign_keys", flag settings.foreignKeys)]

/-- Words that are reserved but may be asked about. -/
def isAskable (name : String) : Bool := ["delete", "on", "default"].contains (Text.lower name)

/-- What a statement yields, and the database after it. -/
def execute (db : Database) (params : List Value) (s : Statement) :
    Except Fault (Answer × Database) :=
  match s with
  | .createTable table columns => do
    .ok (.done, { db with content := ← db.content.createTable s table columns })
  | .addColumn table column d => do
    .ok (.done, { db with content := ← db.content.addColumn s table column d })
  | .createIndex table column => do
    .ok (.done, { db with content := ← db.content.createIndex s table column })
  | .dropTable table => do .ok (.done, { db with content := ← db.content.dropTable s table })
  | .insert table columns => do
    let (number, content) ← db.content.insert s table columns params
    .ok (.changed number 1, { db with content, lastNumber := number })
  | .update table columns tests => do
    let (changes, content) ← db.content.update s table columns tests params
    .ok (.changed db.lastNumber changes, { db with content })
  | .delete table tests => do
    let (changes, content) ← db.content.delete s table tests params
    .ok (.changed db.lastNumber changes, { db with content })
  | .select projection table tests keys => do
    .ok (.rows (← db.content.select s projection table tests keys params).collect, db)
  | .tableList => .ok (.rows (tableRows db.content), db)
  | .tableInfo table =>
    if isReserved table && !isAskable table then
      .error (.syntaxNear table (s.offset .table 0))
    else .ok (.rows (columnRows db.content table), db)
  | .setting setting => .ok (.rows [settingRow db.settings setting], db)
  | .verbatim text => .error (.syntaxNear text 0)

/-- The statement that a text stands for. -/
def resolveVerbatim : Statement → Statement
  | .verbatim text => (Statement.read? text).getD (.verbatim text)
  | s => s

/-- The answer to a call. A fault is answered with its message and changes nothing. -/
def answer (call : Call) (db : Database) : Answer × Database :=
  match db.execute call.params (resolveVerbatim call.statement) with
  | .ok result => result
  | .error fault => (.failed (fault.message call.statement.text), db)

/-- A database in memory as a storage; opened again, it is empty. -/
def memoryBackend : Backend Database where
  answer := answer
  reopen _ := .ok inMemory

end Database

end LiveTable
