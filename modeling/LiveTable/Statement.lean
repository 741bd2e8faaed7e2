import LiveTable.ColumnSpec
import LiveTable.Predicate
import LiveTable.SortOrder

/-!
# Statements

The statements that the store sends to its storage, as data, and their text. A text is a row of
pieces: fixed words, and names at known places. So the place of a name in the text can be told, as
error messages do.
-/

namespace LiveTable

/-- A setting of a connection that can be asked for. -/
inductive Setting
  | journalMode
  | busyTimeout
  | foreignKeys
  deriving DecidableEq

/-- The name of a setting. -/
def Setting.name : Setting → String
  | .journalMode => "journal_mode"
  | .busyTimeout => "busy_timeout"
  | .foreignKeys => "foreign_keys"

/-- A statement. Values are never part of it: each stands behind a placeholder. -/
inductive Statement
  | createTable (table : String) (columns : List (String × ColumnDef))
  | addColumn (table column : String) (definition : ColumnDef)
  | createIndex (table column : String)
  | dropTable (table : String)
  | insert (table : String) (columns : List String)
  | update (table : String) (columns : List String) (tests : List Test)
  | delete (table : String) (tests : List Test)
  | select (projection : List String) (table : String) (tests : List Test) (keys : List SortKey)
  | tableList
  | tableInfo (table : String)
  | setting (s : Setting)
  /-- A statement given by its text alone. -/
  | verbatim (text : String)
  deriving DecidableEq

namespace Statement

/-- What a name in a statement stands for. -/
inductive Place
  | table
  | index
  /-- A column that is declared, indexed or inserted into. -/
  | column
  /-- A column that is assigned to. -/
  | assigned
  /-- An entry of a projection. -/
  | projected
  /-- The field of a test. -/
  | field
  /-- A column to sort by. -/
  | key
  deriving DecidableEq

/-- A piece of the text of a statement. -/
inductive Piece
  | word (text : String)
  | name (place : Place) (text : String)
  deriving DecidableEq

/-- The text of a piece. -/
def Piece.text : Piece → String
  | .word s => s
  | .name _ s => s

/-- Rows of pieces with a fixed word between them. -/
def separated (separator : String) : List (List Piece) → List Piece
  | [] => []
  | [row] => row
  | row :: rest => row ++ .word separator :: separated separator rest

/-- Names at one place with commas between them. -/
def nameList (place : Place) (names : List String) : List Piece :=
  separated ", " (names.map fun n => [.name place n])

/-- The condition at the end of a statement. -/
def wherePieces (tests : List Test) : List Piece :=
  if tests.isEmpty then []
  else .word " WHERE " ::
    separated " AND " (tests.map fun t => [.name .field t.field, .word (" " ++ t.op.sql)])

/-- The order at the end of a statement. -/
def orderPieces (keys : List SortKey) : List Piece :=
  if keys.isEmpty then []
  else .word " ORDER BY " ::
    separated ", " (keys.map fun k => [.name .key k.column, .word (" " ++ k.direction.sql)])

/-- The name of the index on a column of a table. -/
def indexName (table column : String) : String := "idx_" ++ table ++ "_" ++ column

/-- The pieces of the text of a statement. -/
def pieces : Statement → List Piece
  | .createTable table columns =>
    [.word "CREATE TABLE IF NOT EXISTS ", .name .table table, .word " ("]
      ++ separated ", " (columns.map fun (c, d) => [.name .column c, .word (" " ++ d.sql)])
      ++ [.word ")"]
  | .addColumn table column definition =>
    [.word "ALTER TABLE ", .name .table table, .word " ADD COLUMN ", .name .column column,
      .word (" " ++ definition.sql)]
  | .createIndex table column =>
    [.word "CREATE INDEX IF NOT EXISTS ", .name .index (indexName table column), .word " ON ",
      .name .table table, .word " (", .name .column column, .word ")"]
  | .dropTable table => [.word "DROP TABLE IF EXISTS ", .name .table table]
  | .insert table columns =>
    [.word "INSERT INTO ", .name .table table, .word " ("] ++ nameList .column columns
      ++ [.word (") VALUES (" ++ TestOp.placeholders columns.length ++ ")")]
  | .update table columns tests =>
    [.word "UPDATE ", .name .table table, .word " SET "]
      ++ separated ", " (columns.map fun c => [.name .assigned c, .word " = ?"])
      ++ wherePieces tests
  | .delete table tests => [.word "DELETE FROM ", .name .table table] ++ wherePieces tests
  | .select projection table tests keys =>
    [.word "SELECT "] ++ nameList .projected projection
      ++ [.word " FROM ", .name .table table] ++ wherePieces tests ++ orderPieces keys
  | .tableList => [.word "PRAGMA table_list"]
  | .tableInfo table => [.word "PRAGMA table_info(", .name .table table, .word ")"]
  | .setting s => [.word ("PRAGMA " ++ s.name)]
  | .verbatim text => [.word text]

/-- The text of a statement. -/
def text (s : Statement) : String := String.join (s.pieces.map Piece.text)

/-- The number of bytes in front of the name that is `skip` names of its place after the first
one. -/
def offsetIn (place : Place) : Nat → List Piece → Nat
  | _, [] => 0
  | skip, .name p s :: rest =>
    if p = place then
      match skip with
      | 0 => 0
      | skip + 1 => s.utf8ByteSize + offsetIn place skip rest
    else s.utf8ByteSize + offsetIn place skip rest
  | skip, .word s :: rest => s.utf8ByteSize + offsetIn place skip rest

/-- The byte offset of a name in the text. -/
def offset (s : Statement) (place : Place) (skip : Nat) : Nat := offsetIn place skip s.pieces

end Statement

/-- The text that a sort order adds to a statement: nothing if there are no keys. Columns must be
plain identifiers. -/
def SortOrder.orderBy (s : SortOrder) : Except Error String := do
  checkNames (s.keys.map (·.column))
  if s.isEmpty then .ok ""
  else .ok ("ORDER BY " ++ ", ".intercalate (s.keys.map fun k => k.column ++ " " ++ k.direction.sql))

/-- How a statement is sent: for its effect, for its effect and the rows that it changes, or for the
rows that it yields. -/
inductive CallKind
  | execute
  | run
  | query
  deriving DecidableEq

/-- A statement with the values behind its placeholders. -/
structure Call where
  kind : CallKind
  statement : Statement
  params : List Value
  deriving DecidableEq

end LiveTable
