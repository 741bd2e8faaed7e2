import LiveTable.Statement

/-!
# Requests

What the store is asked to do, turned into calls. Every name that would become part of a statement
must be a plain identifier; the first check that fails decides the error and nothing is sent. The
checks go from left to right: the table, then the columns, then the fields of the filter, then the
columns of the order.
-/

namespace LiveTable

/-- The arguments of a selection. No columns means all columns. -/
structure QuerySpec where
  table : String
  columns : List String
  filter : Filter
  order : SortOrder
  deriving DecidableEq

namespace Request

/-- The columns of a new table: those of the caller, and the reserved column, which is an integer
whatever the caller declares. -/
def declaredColumns (spec : ColumnSpec) : ColumnSpec :=
  spec.insert addedColumn (.plain .integer)

/-- Create a table if there is none of that name. -/
def createTable (table : String) (spec : ColumnSpec) : Except Error Call := do
  checkName table
  let columns := declaredColumns spec
  checkNames columns.names
  .ok ⟨.execute, .createTable table columns.entries, []⟩

/-- Add one column to a table. -/
def addColumn (table column : String) (definition : ColumnDef) : Except Error Call := do
  checkName column
  .ok ⟨.execute, .addColumn table column definition, []⟩

/-- Create the index on one column if there is none of its name. -/
def createIndex (table column : String) : Except Error Call := do
  checkName table
  checkName column
  .ok ⟨.execute, .createIndex table column, []⟩

/-- Drop a table if there is one. -/
def dropTable (table : String) : Except Error Call := do
  checkName table
  .ok ⟨.execute, .dropTable table, []⟩

/-- List the tables. -/
def tableList : Call := ⟨.query, .tableList, []⟩

/-- List the columns of a table. -/
def tableInfo (table : String) : Except Error Call := do
  checkName table
  .ok ⟨.query, .tableInfo table, []⟩

/-- A row with the time of its insertion in the reserved column. -/
def stamped (now : Int64) (row : Row) : Row := row.insert addedColumn (.integer now)

/-- Insert a row, stamped with the time. -/
def insert (now : Int64) (table : String) (row : Row) : Except Error Call := do
  checkName table
  let row := stamped now row
  checkNames row.names
  .ok ⟨.run, .insert table row.names, row.values⟩

/-- Set the columns of a row in every row that a filter selects. -/
def update (table : String) (filter : Filter) (row : Row) : Except Error Call := do
  checkName table
  checkNames row.names
  let predicate ← Predicate.ofFilter filter
  .ok ⟨.run, .update table row.names predicate.tests, row.values ++ predicate.params⟩

/-- Delete every row that a filter selects. -/
def delete (table : String) (filter : Filter) : Except Error Call := do
  checkName table
  let predicate ← Predicate.ofFilter filter
  .ok ⟨.run, .delete table predicate.tests, predicate.params⟩

/-- The entries of a projection are identifiers or the star, and none repeats one of those in front
of it, which are given in reverse. At each entry the identifier is checked first. -/
def checkProjection (before : List String) : List String → Except Error Unit
  | [] => .ok ()
  | column :: rest => do
    if column ≠ "*" then checkName column
    if column ∈ before then throw (.duplicateColumn column)
    checkProjection (column :: before) rest

/-- The projection of a selection: the star stands for all columns. -/
def projection (columns : List String) : List String := if columns.isEmpty then ["*"] else columns

/-- Select rows. -/
def select (spec : QuerySpec) : Except Error Call := do
  checkName spec.table
  checkProjection [] spec.columns
  let predicate ← Predicate.ofFilter spec.filter
  checkNames (spec.order.keys.map (·.column))
  .ok ⟨.query, .select (projection spec.columns) spec.table predicate.tests spec.order.keys,
    predicate.params⟩

end Request

end LiveTable
