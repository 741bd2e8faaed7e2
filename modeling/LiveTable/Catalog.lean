import LiveTable.Error
import LiveTable.Row

/-!
# Tables and columns as the storage lists them

The storage describes its tables and columns in rows. Each field is read from a column of the row;
the first field whose column is missing or of the wrong kind is an error.
-/

namespace LiveTable

/-- A table in the storage. -/
structure TableInfo where
  schema : String
  name : String
  kind : String
  columnCount : Int64
  withoutRowid : Bool
  strict : Bool
  deriving DecidableEq

/-- A column of a table in the storage. -/
structure ColumnInfo where
  position : Int64
  name : String
  declaredType : String
  notNull : Bool
  defaultValue : Option String
  /-- The position in the primary key, from one; zero outside it. -/
  primaryKey : Int64
  deriving DecidableEq

namespace Catalog

/-- A column that is missing or of the wrong kind. -/
def badColumn (column : String) : Error := .storage ("Invalid column name: " ++ column)

/-- A text in a row. -/
def text (row : Row) (column : String) : Except Error String :=
  match (row.get? column).bind Value.asText? with
  | some s => .ok s
  | none => .error (badColumn column)

/-- An integer in a row. -/
def integer (row : Row) (column : String) : Except Error Int64 :=
  match (row.get? column).bind Value.asInt? with
  | some n => .ok n
  | none => .error (badColumn column)

end Catalog

/-- The table that a row describes. -/
def TableInfo.ofRow (row : Row) : Except Error TableInfo := do
  let schema ← Catalog.text row "schema"
  let name ← Catalog.text row "name"
  let kind ← Catalog.text row "type"
  let columnCount ← Catalog.integer row "ncol"
  let withoutRowid ← Catalog.integer row "wr"
  let strict ← Catalog.integer row "strict"
  .ok { schema, name, kind, columnCount
        withoutRowid := withoutRowid ≠ 0
        strict := strict ≠ 0 }

/-- The text of a default value: null is none. -/
def ColumnInfo.defaultOf (row : Row) : Option String :=
  match row.get? "dflt_value" with
  | none | some .null => none
  | some v => some v.display

/-- The column that a row describes. -/
def ColumnInfo.ofRow (row : Row) : Except Error ColumnInfo := do
  let position ← Catalog.integer row "cid"
  let name ← Catalog.text row "name"
  let declaredType ← Catalog.text row "type"
  let notNull ← Catalog.integer row "notnull"
  let primaryKey ← Catalog.integer row "pk"
  .ok { position, name, declaredType, primaryKey
        notNull := notNull ≠ 0
        defaultValue := ColumnInfo.defaultOf row }

/-- Every expected column is among the columns of a table, by its exact name. -/
def coversColumns (columns : List ColumnInfo) (expected : List String) : Bool :=
  expected.all fun name => columns.any fun c => c.name == name

end LiveTable
