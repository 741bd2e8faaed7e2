import LiveTable.Binary64.Layout

/-!
# Cell values

A cell holds one of five kinds of value. Texts and byte strings are kept as they are, integers have
sixty-four bits, and real numbers are 64-bit floating-point numbers.
-/

namespace LiveTable

/-- The value of a cell. -/
inductive Value
  | null
  | integer (n : Int64)
  | real (x : Binary64)
  | text (s : String)
  | blob (bytes : List UInt8)
  deriving DecidableEq, Inhabited

namespace Value

/-- Truth values are the integers one and zero. -/
def ofBool (b : Bool) : Value := .integer (if b then 1 else 0)

/-- The value of an optional value: none is null. -/
def ofOption (v : Option Value) : Value := v.getD .null

/-- No value. -/
def isNull : Value → Bool
  | .null => true
  | _ => false

/-- An integer cell. -/
def asInt? : Value → Option Int64
  | .integer n => some n
  | _ => none

/-- A number of either kind as a floating-point number. -/
def asReal? : Value → Option Binary64
  | .real x => some x
  | .integer n => some (.ofInt n.toInt)
  | _ => none

/-- A text cell. -/
def asText? : Value → Option String
  | .text s => some s
  | _ => none

/-- What is shown to a reader: bytes are only counted. -/
def display : Value → String
  | .null => "NULL"
  | .integer n => toString n.toInt
  | .real x => Binary64.plain.write x
  | .text s => s
  | .blob bytes => "<" ++ toString bytes.length ++ " bytes>"

/-- Equality of values of one kind. Real numbers are compared as numbers, so the not-a-number
differs from itself and the two zeros are equal. -/
def equal : Value → Value → Bool
  | .real x, .real y => x.numEq y
  | a, b => a == b

end Value

end LiveTable
