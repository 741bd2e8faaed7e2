import LiveTable.Database.Comparison
import LiveTable.Database.Fault

/-!
# Tables

A table has columns and records. Every record has a number of its own, and the records stand in the
order of their numbers. If a column of integers is the primary key, it is a name for the number;
another primary key is a column whose values are all different. Names are compared without regard
to the case of ASCII letters. Where a value is asked for, a word for the time is no column.
-/

namespace LiveTable.Database

/-- A column of a table. -/
structure TableColumn where
  name : String
  /-- The declared type, as it is written. -/
  declared : String
  affinity : Affinity
  notNull : Bool
  primaryKey : Bool
  deriving DecidableEq, Inhabited

/-- The column of a declaration. -/
def TableColumn.ofDef (name : String) (d : ColumnDef) : TableColumn where
  name
  declared := d.type.sql
  affinity := .ofType d.type
  notNull := d.notNull
  primaryKey := d.primaryKey

/-- The values of a record, one for each column, and its number. -/
structure Record where
  number : Int64
  cells : List Value
  deriving DecidableEq, Inhabited

/-- A table. -/
structure Table where
  name : String
  columns : List TableColumn
  records : List Record
  /-- Record numbers are never used again. -/
  autoincrement : Bool
  /-- Belongs to the database itself and cannot be changed. -/
  readOnly : Bool
  deriving DecidableEq, Inhabited

/-- What a name in a statement stands for. -/
inductive Reference
  /-- The number of a record. -/
  | number
  | cell (index : Nat)
  /-- The time, with the word for it. -/
  | time (word : String)
  deriving DecidableEq

/-- Names of the record number. -/
def isNumberName (name : String) : Bool := ["rowid", "oid", "_rowid_"].contains (Text.lower name)

namespace Table

/-- The place of a column by name. -/
def columnIndex? (t : Table) (name : String) : Option Nat :=
  t.columns.findIdx? fun c => Text.sameName c.name name

/-- The column that is a name for the record number. -/
def numberColumn? (t : Table) : Option Nat :=
  t.columns.findIdx? fun c => c.primaryKey && c.affinity == .integer

/-- The column whose values are all different. -/
def uniqueColumn? (t : Table) : Option Nat :=
  if t.numberColumn?.isSome then none else t.columns.findIdx? (·.primaryKey)

/-- What a name stands for to which a value is given: a column of that name, or the record number. -/
def columnReference? (t : Table) (name : String) : Option Reference :=
  match t.columnIndex? name with
  | some i => some (if t.numberColumn? = some i then .number else .cell i)
  | none => if isNumberName name then some .number else none

/-- What a name stands for whose value is asked for. -/
def reference? (t : Table) (name : String) : Option Reference :=
  if isTimeWord name then some (.time name) else t.columnReference? name

/-- The column at a place. -/
def column (t : Table) (index : Nat) : TableColumn := t.columns[index]?.getD default

/-- The name of the record number in results. -/
def numberName (t : Table) : String :=
  match t.numberColumn? with
  | some i => (t.column i).name
  | none => "rowid"

/-- The name of a reference in results. -/
def referenceName (t : Table) : Reference → String
  | .number => t.numberName
  | .cell i => (t.column i).name
  | .time word => word

/-- The affinity of a reference. -/
def referenceAffinity (t : Table) : Reference → Affinity
  | .number => .integer
  | .cell i => (t.column i).affinity
  | .time _ => .none

/-- The references of all columns. -/
def allReferences (t : Table) : List Reference :=
  (List.range t.columns.length).map fun i =>
    if t.numberColumn? = some i then .number else .cell i

/-- The greatest record number. -/
def lastNumber? (t : Table) : Option Int64 := t.records.getLast?.map (·.number)

end Table

/-- What a clock that stands still shows for a word for the time. -/
def stoppedClock (word : String) : String :=
  match Text.lower word with
  | "current_time" => "00:00:00"
  | "current_date" => "1970-01-01"
  | _ => "1970-01-01 00:00:00"

/-- The value of a reference in a record. -/
def Record.get (r : Record) : Reference → Value
  | .number => .integer r.number
  | .cell i => r.cells[i]?.getD .null
  | .time word => .text (stoppedClock word)

/-- Records in order of their numbers with one more. -/
def insertRecord (r : Record) : List Record → List Record
  | [] => [r]
  | head :: rest =>
    if r.number < head.number then r :: head :: rest else head :: insertRecord r rest

end LiveTable.Database
