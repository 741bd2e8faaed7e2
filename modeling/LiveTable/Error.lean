import LiveTable.Json
import LiveTable.Text.Quoted

/-!
# Errors

What can go wrong with a request to the store: an operator or an operand of a filter, a name, a
projection, or the storage itself. Each error has one message.
-/

namespace LiveTable

/-- What is wrong with an operand. -/
inductive OperandFault
  | notObject
  | noOperator
  /-- The operand's JSON text. -/
  | notScalar (found : String)
  | notArray
  deriving DecidableEq

/-- The wording of a fault. -/
def OperandFault.message : OperandFault → String
  | .notObject => "expected a JSON object"
  | .noOperator => "expected at least one operator"
  | .notScalar found => "expected a scalar, got " ++ found
  | .notArray => "expected an array"

/-- An error of the store. -/
inductive Error
  | unsupportedOperator (operator : String)
  | invalidOperand (operator : String) (fault : OperandFault)
  | emptySchema (table : String)
  | invalidIdentifier (name : String)
  | duplicateColumn (column : String)
  /-- An error of the storage, with its own message. -/
  | storage (message : String)
  deriving DecidableEq

/-- The message of an error. -/
def Error.message : Error → String
  | .unsupportedOperator operator => "Unsupported operator: " ++ operator
  | .invalidOperand operator fault =>
    "Invalid operand for " ++ operator ++ ": " ++ fault.message
  | .emptySchema table => "Table schema not defined for " ++ table
  | .invalidIdentifier name =>
    "Invalid identifier: " ++ Text.quoted name
      ++ " (must match [A-Za-z_][A-Za-z0-9_]*, max 64 chars)"
  | .duplicateColumn column => "Duplicate column in projection: " ++ column
  | .storage message => message

end LiveTable
