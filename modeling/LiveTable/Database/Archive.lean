import LiveTable.Database.Content
import LiveTable.Json.Reader

/-!
# Archives

The text in which the content of a database stands in a file: a JSON document of its tables and
indexes. Numbers with a fraction are written by their bits and rows of bytes as arrays, so that
every value is read back as it was.
-/

namespace LiveTable.Database

/-! ## Values -/

/-- The document of a value. -/
def archiveValue : Value → Json
  | .null => .null
  | .integer n => .integer n.toInt
  | .real x => .object [("bits", .integer x.bits.toNat)]
  | .text s => .string s
  | .blob bytes => .array (bytes.map fun b => .integer b.toNat)

/-- An integer of a document. -/
def restoreInt? : Json → Option Int
  | .integer n => some n
  | _ => none

/-- The value of a document. -/
def restoreValue? : Json → Option Value
  | .null => some .null
  | .integer n => some (.integer (Int64.ofInt n))
  | .object [("bits", .integer n)] => some (.real (.ofBits (UInt64.ofNat n.toNat)))
  | .string s => some (.text s)
  | .array items => do some (.blob ((← items.mapM restoreInt?).map fun n => n.toNat.toUInt8))
  | _ => none

/-! ## Tables -/

/-- The document of a column. -/
def archiveColumn (c : TableColumn) : Json :=
  .array [.string c.name, .string c.declared, .bool c.notNull, .bool c.primaryKey]

/-- The affinity of a declared type; a column that is declared without a type has none. -/
def restoreAffinity? (declared : String) : Option Affinity :=
  if declared.isEmpty then some .none
  else (ColumnType.ofLower? (Text.lower declared)).map .ofType

/-- The column of a document. -/
def restoreColumn? : Json → Option TableColumn
  | .array [.string name, .string declared, .bool notNull, .bool primaryKey] => do
    some ⟨name, declared, ← restoreAffinity? declared, notNull, primaryKey⟩
  | _ => none

/-- The document of a record. -/
def archiveRecord (r : Record) : Json :=
  .array (.integer r.number.toInt :: r.cells.map archiveValue)

/-- The record of a document. -/
def restoreRecord? : Json → Option Record
  | .array (.integer n :: cells) => do some ⟨Int64.ofInt n, ← cells.mapM restoreValue?⟩
  | _ => none

/-- The document of a table. -/
def archiveTable (t : Table) : Json :=
  .array [.string t.name, .bool t.autoincrement, .array (t.columns.map archiveColumn),
    .array (t.records.map archiveRecord)]

/-- The table of a document. -/
def restoreTable? : Json → Option Table
  | .array [.string name, .bool autoincrement, .array columns, .array records] => do
    some ⟨name, ← columns.mapM restoreColumn?, ← records.mapM restoreRecord?, autoincrement, false⟩
  | _ => none

/-- The document of an index. -/
def archiveIndex (i : Index) : Json := .array [.string i.name, .string i.table, .string i.column]

/-- The index of a document. -/
def restoreIndex? : Json → Option Index
  | .array [.string name, .string table, .string column] => some ⟨name, table, column⟩
  | _ => none

/-! ## Contents -/

/-- The text of a content. -/
def Content.archive (c : Content) : String :=
  (Json.object [("tables", .array (c.tables.map archiveTable)),
    ("indexes", .array (c.indexes.map archiveIndex))]).write

/-- The content of a text. -/
def Content.restore? (text : String) : Option Content := do
  match ← Json.read? text with
  | .object [("tables", .array tables), ("indexes", .array indexes)] =>
    some ⟨← tables.mapM restoreTable?, ← indexes.mapM restoreIndex?⟩
  | _ => none

end LiveTable.Database
