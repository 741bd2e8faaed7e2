import LiveTable.Json
import LiveTable.Ordered
import LiveTable.Value

/-!
# Rows

A row is a map from column names to values in column order. A JSON document is a row iff it is an
object whose members are all scalars, and every row has a JSON text.
-/

namespace LiveTable

namespace Value

/-- The value of a JSON scalar. Truth values become integers, and a number that a signed integer of
sixty-four bits cannot hold becomes a real number. Arrays and objects have no value. -/
def ofJson? : Json → Option Value
  | .null => some .null
  | .bool b => some (.ofBool b)
  | .integer n =>
    some (if -pow2 63 ≤ n ∧ n < pow2 63 then .integer (Int64.ofInt n) else .real (.ofInt n))
  | .real x => some (.real x)
  | .string s => some (.text s)
  | .array _ | .object _ => none

/-- The JSON document of a value. Bytes are an array of numbers. -/
def toJson : Value → Json
  | .null => .null
  | .integer n => .integer n.toInt
  | .real x => .real x
  | .text s => .string s
  | .blob bytes => .array (bytes.map fun b => .integer b.toNat)

end Value

/-- The values of a row by column name, in column order. -/
abbrev Row := Ordered Value

namespace Row

/-- The entries of a row whose values are those of JSON scalars, if all of them are. -/
def entriesOfJson? : List (String × Json) → Option (List (String × Value))
  | [] => some []
  | (name, json) :: rest => do
    let value ← Value.ofJson? json
    some ((name, value) :: (← entriesOfJson? rest))

/-- The row that a JSON document describes. -/
def ofJson? : Json → Option Row
  | .object members => (entriesOfJson? members).map Ordered.ofList
  | _ => none

/-- The JSON object of a row. -/
def toJson (row : Row) : Json := .object (row.entries.map fun e => (e.1, e.2.toJson))

/-- The same columns in the same order with equal values. -/
def equalEntries : List (String × Value) → List (String × Value) → Bool
  | [], [] => true
  | (n, v) :: rest, (m, w) :: others => n == m && v.equal w && equalEntries rest others
  | _, _ => false

/-- Equality of rows, by the equality of their values. -/
def equal (a b : Row) : Bool := equalEntries a.entries b.entries

end Row

end LiveTable
