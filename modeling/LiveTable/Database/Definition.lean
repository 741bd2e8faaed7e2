import LiveTable.Database.Content

/-!
# Defining tables

Creating and dropping tables, adding columns and creating indexes. A declaration is checked from
left to right, and the first fault decides.
-/

namespace LiveTable.Database

/-- The words of a declaration are due where they stand, given the byte offset of its name: that is
no reserved word, and growing numbers follow a primary key only. -/
def checkWords (offset : Nat) (name : String) (d : ColumnDef) : Except Fault Unit :=
  if isReserved name then .error (.syntaxNear name offset)
  else if d.autoincrement && !d.primaryKey then
    .error (.syntaxNear "AUTOINCREMENT"
      (offset + (name ++ " " ++ d.type.sql ++ " ").utf8ByteSize))
  else .ok ()

/-- Declare one more column of a table whose primary key may be declared already. -/
def declare (table : String) (columns : List TableColumn) (hasKey : Bool) (name : String)
    (d : ColumnDef) : Except Fault TableColumn :=
  if columns.any fun c => Text.sameName c.name name then .error (.duplicateColumn name)
  else if d.primaryKey && hasKey then .error (.manyPrimaryKeys table)
  else if d.autoincrement && d.type ≠ .integer then .error .badAutoincrement
  else .ok (.ofDef name d)

/-- The columns of a declaration, from left to right, given the columns in front of them and the
bytes in front of the first name. -/
def declareAll (table : String) (offset : Nat → Nat) (columns : List TableColumn) :
    List (String × ColumnDef) → Except Fault (List TableColumn)
  | [] => .ok columns
  | (name, d) :: rest => do
    checkWords (offset columns.length) name d
    let column ← declare table columns (columns.any (·.primaryKey)) name d
    declareAll table offset (columns ++ [column]) rest

/-- The words of all declarations from a place on are due where they stand. -/
def checkAllWords (offset : Nat → Nat) (place : Nat) :
    List (String × ColumnDef) → Except Fault Unit
  | [] => .ok ()
  | (name, d) :: rest => do
    checkWords (offset place) name d
    checkAllWords offset (place + 1) rest

namespace Content

/-- Create a table, unless there is one of that name. -/
def createTable (c : Content) (s : Statement) (name : String)
    (columns : List (String × ColumnDef)) : Except Fault Content := do
  if isReserved name then throw (.syntaxNear name (s.offset .table 0))
  if isSystemName name then throw (.reservedName name)
  if (c.find? name).isSome then
    checkAllWords (s.offset .column) 0 columns
    .ok c
  else
    if let some index := c.findIndex? name then throw (.indexExists index.name)
    let declared ← declareAll name (s.offset .column) [] columns
    let autoincrement := columns.any fun (_, d) => d.autoincrement
    let table : Table :=
      { name, columns := declared, records := [], autoincrement, readOnly := false }
    let needsSequence := autoincrement && (c.find? sequenceName).isNone
    .ok { c with
      tables := c.tables ++ [table] ++ if needsSequence then [sequenceTable] else [] }

/-- Add a column to a table; its value is null in every record. -/
def addColumn (c : Content) (s : Statement) (table column : String) (d : ColumnDef) :
    Except Fault Content := do
  if isReserved table then throw (.syntaxNear table (s.offset .table 0))
  match c.find? table with
  | none => .error (.noSuchTable table)
  | some t =>
    if isSystemName t.name then throw (.notAlterable t.name)
    checkWords (s.offset .column 0) column d
    let added ← declare t.name t.columns false column d
    if d.primaryKey then throw .addPrimaryKey
    if d.notNull && !t.records.isEmpty then throw .addNotNull
    .ok (c.setTable { t with
      columns := t.columns ++ [added]
      records := t.records.map fun r => { r with cells := r.cells ++ [.null] } })

/-- Create the index on a column, unless there is an index of its name. A word that stands for a value
of its own will do as well, but not one that stands for the time. -/
def createIndex (c : Content) (s : Statement) (table column : String) :
    Except Fault Content := do
  if isReserved table then throw (.syntaxNear table (s.offset .table 0))
  if isReserved column && !isConstantWord column then
    throw (.syntaxNear column (s.offset .column 0))
  let name := Statement.indexName table column
  match c.find? table with
  | none => .error (.noSuchTable ("main." ++ table))
  | some t =>
    if isSystemName t.name then throw (.notIndexable t.name)
    if let some other := c.find? name then throw (.tableExists other.name)
    if (c.findIndex? name).isSome then .ok c
    else
      if isTimeWord column then throw (.unsteadyIndex (s.offset .column 0))
      if (t.columnIndex? column).isNone && !isConstantWord column then
        throw (.noSuchColumn column (some (s.offset .column 0)))
      .ok { c with indexes := c.indexes ++ [⟨name, t.name, column⟩] }

/-- Drop a table with its indexes and its sequence, if there is one of that name. -/
def dropTable (c : Content) (s : Statement) (name : String) : Except Fault Content := do
  if let some fault := syntaxFault 0 s.pieces then throw fault
  match c.find? name with
  | none => .ok c
  | some t =>
    if isSystemName t.name then throw (.notDroppable t.name)
    let kept := c.tables.filter fun other => other.name ≠ t.name
    let indexes := c.indexes.filter fun i => i.table ≠ t.name
    let forget (other : Table) : Table :=
      if t.autoincrement && other.name = sequenceName then
        { other with records := other.records.filter fun r => r.cells.head? ≠ some (.text t.name) }
      else other
    .ok { tables := kept.map forget, indexes }

end Content

end LiveTable.Database
