import LiveTable.Database.Table

/-!
# The content of a database

Tables in the order of their creation, indexes by name, and the settings of the connection. The
schema itself can be read as a table. A table of sequences holds the greatest record number that
each table with growing numbers has used; it appears with the first of these tables.
-/

namespace LiveTable.Database

/-- An index on a column of a table. -/
structure Index where
  name : String
  table : String
  /-- The column, as the statement of the index names it. -/
  column : String
  deriving DecidableEq

/-- The settings of a connection. -/
structure Settings where
  journalMode : String
  busyTimeout : Nat
  foreignKeys : Bool
  deriving DecidableEq

/-- The settings of a database in memory. -/
def Settings.memory : Settings := ⟨"memory", 5000, true⟩

/-- What is kept: tables and indexes. -/
structure Content where
  tables : List Table
  indexes : List Index
  deriving DecidableEq

instance : Inhabited Content := ⟨⟨[], []⟩⟩

/-- A column that belongs to the database itself. -/
def systemColumn (name declared : String) (affinity : Affinity) : TableColumn :=
  ⟨name, declared, affinity, false, false⟩

/-- The name of the table of sequences. -/
def sequenceName : String := "sqlite_sequence"

/-- The table of sequences when it appears. -/
def sequenceTable : Table where
  name := sequenceName
  columns := [systemColumn "name" "" .none, systemColumn "seq" "" .none]
  records := []
  autoincrement := false
  readOnly := false

/-- The name belongs to the database itself. -/
def isSystemName (name : String) : Bool := (Text.lower name).startsWith "sqlite_"

/-- The columns of the schema as a table. -/
def schemaColumns : List TableColumn :=
  [systemColumn "type" "TEXT" .text, systemColumn "name" "TEXT" .text,
    systemColumn "tbl_name" "TEXT" .text, systemColumn "rootpage" "INT" .integer,
    systemColumn "sql" "TEXT" .text]

/-- The names under which the schema can be read, and its own name. -/
def schemaName? (name : String) : Option String :=
  match Text.lower name with
  | "sqlite_master" | "sqlite_schema" => some "sqlite_master"
  | "sqlite_temp_master" | "sqlite_temp_schema" => some "sqlite_temp_master"
  | _ => none

/-- The declaration of a column in the schema. -/
def TableColumn.sql (t : Table) (c : TableColumn) : String :=
  c.name ++ (if c.declared.isEmpty then "" else " " ++ c.declared)
    ++ (if c.primaryKey then " PRIMARY KEY" else "")
    ++ (if c.primaryKey && t.autoincrement then " AUTOINCREMENT" else "")
    ++ (if c.notNull then " NOT NULL" else "")

/-- The statement of a table in the schema. -/
def Table.sql (t : Table) : String :=
  if t.name = sequenceName then "CREATE TABLE sqlite_sequence(name,seq)"
  else "CREATE TABLE " ++ t.name ++ " (" ++ ", ".intercalate (t.columns.map (TableColumn.sql t))
    ++ ")"

/-- The rows of the schema for a table: the table itself, and the index of its unique column. -/
def Table.schemaRows (t : Table) : List (List Value) :=
  let table := [.text "table", .text t.name, .text t.name, .null, .text t.sql]
  let index := [.text "index", .text ("sqlite_autoindex_" ++ t.name ++ "_1"), .text t.name, .null,
    .null]
  if t.uniqueColumn?.isSome then [table, index] else [table]

/-- The row of the schema for an index. -/
def Index.schemaRow (i : Index) : List Value :=
  [.text "index", .text i.name, .text i.table, .null,
    .text ("CREATE INDEX " ++ i.name ++ " ON " ++ i.table ++ " (" ++ i.column ++ ")")]

namespace Content

/-- The schema as a table. Each entry has the number of its place as its page. -/
def schemaTable (c : Content) (name : String) : Table where
  name
  columns := schemaColumns
  records :=
    if name = "sqlite_master" then
      let rows := c.tables.flatMap Table.schemaRows ++ c.indexes.map Index.schemaRow
      rows.zipIdx.map fun (cells, i) =>
        ⟨Int64.ofNat (i + 1), cells.set 3 (.integer (Int64.ofNat (i + 2)))⟩
    else []
  autoincrement := false
  readOnly := true

/-- The table of a name. -/
def find? (c : Content) (name : String) : Option Table :=
  match schemaName? name with
  | some own => some (c.schemaTable own)
  | none => c.tables.find? fun t => Text.sameName t.name name

/-- The index of a name. -/
def findIndex? (c : Content) (name : String) : Option Index :=
  c.indexes.find? fun i => Text.sameName i.name name

/-- Replace the table of a name. -/
def setTable (c : Content) (t : Table) : Content :=
  { c with tables := c.tables.map fun old => if old.name = t.name then t else old }

/-- The greatest number that the table of sequences holds for a table. -/
def sequence (c : Content) (table : String) : Int64 :=
  let record : Option Record := (c.find? sequenceName).bind fun t =>
    t.records.find? fun r => r.cells.head? == some (.text table)
  let value : Option Value := record.bind fun r => r.cells[1]?
  match value with
  | some (.integer n) => n
  | _ => 0

/-- Note a number in the table of sequences. -/
def setSequence (c : Content) (table : String) (n : Int64) : Content :=
  match c.find? sequenceName with
  | none => c
  | some t =>
    let isEntry (r : Record) : Bool := r.cells.head? == some (.text table)
    let entry : List Value := [.text table, .integer n]
    let records :=
      if t.records.any isEntry then
        t.records.map fun r => if isEntry r then { r with cells := entry } else r
      else t.records ++ [⟨(t.lastNumber?.getD 0) + 1, entry⟩]
    c.setTable { t with records }

end Content

end LiveTable.Database
