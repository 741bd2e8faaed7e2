import LiveTable.Error
import LiveTable.Row

/-!
# Filters

A filter is a conjunction of conditions on fields, in order. In JSON it is an object from fields to
literals, which must be equal, or to objects from operators to operands. Reading stops at the first
field or operator that does not fit.
-/

namespace LiveTable

/-- An operator with one operand. -/
inductive CompareOp
  | eq
  | ne
  | gt
  | lt
  | ge
  | le
  | like
  deriving DecidableEq

/-- The operator in a statement. -/
def CompareOp.sql : CompareOp → String
  | .eq => "="
  | .ne => "!="
  | .gt => ">"
  | .lt => "<"
  | .ge => ">="
  | .le => "<="
  | .like => "LIKE"

/-- An operator whose operand is a list of values. -/
inductive MemberOp
  | isIn
  | notIn
  deriving DecidableEq

/-- The operator in a statement. -/
def MemberOp.sql : MemberOp → String
  | .isIn => "IN"
  | .notIn => "NOT IN"

/-- What is required of a field. -/
inductive Condition
  /-- Equal to a literal. -/
  | equals (value : Value)
  | compare (op : CompareOp) (value : Value)
  | member (op : MemberOp) (values : List Value)
  deriving DecidableEq

/-- A condition on one field. -/
structure Clause where
  field : String
  condition : Condition
  deriving DecidableEq

/-- A conjunction of clauses; a field may occur more than once. -/
structure Filter where
  clauses : List Clause
  deriving DecidableEq

namespace Filter

/-- The filter that every row satisfies. -/
def empty : Filter := ⟨[]⟩

instance : Inhabited Filter := ⟨empty⟩

/-- The filter with one more clause at its end. -/
def add (f : Filter) (field : String) (condition : Condition) : Filter :=
  ⟨f.clauses ++ [⟨field, condition⟩]⟩

/-- No clauses. -/
def isEmpty (f : Filter) : Bool := f.clauses.isEmpty

/-- The number of clauses. -/
def size (f : Filter) : Nat := f.clauses.length

/-! ## Filters in JSON -/

/-- An operator as JSON filters name it. -/
inductive Operator
  | compare (op : CompareOp)
  | member (op : MemberOp)
  deriving DecidableEq

/-- The operator of a key. -/
def Operator.ofKey? : String → Option Operator
  | "$eq" => some (.compare .eq)
  | "$gt" => some (.compare .gt)
  | "$gte" => some (.compare .ge)
  | "$lt" => some (.compare .lt)
  | "$lte" => some (.compare .le)
  | "$ne" => some (.compare .ne)
  | "$like" => some (.compare .like)
  | "$in" => some (.member .isIn)
  | "$nin" => some (.member .notIn)
  | _ => none

/-- A scalar operand of the operator named by a key. -/
def scalar (key : String) (json : Json) : Except Error Value :=
  match Value.ofJson? json with
  | some v => .ok v
  | none => .error (.invalidOperand key (.notScalar json.write))

/-- The condition of an operator key and its operand. The operator is looked at first. -/
def conditionOfJson (key : String) (operand : Json) : Except Error Condition :=
  match Operator.ofKey? key with
  | none => .error (.unsupportedOperator key)
  | some (.compare op) => do .ok (.compare op (← scalar key operand))
  | some (.member op) =>
    match operand with
    | .array items => do .ok (.member op (← items.mapM (scalar key)))
    | _ => .error (.invalidOperand key .notArray)

/-- The clauses of one field. -/
def clausesOfField (field : String) : Json → Except Error (List Clause)
  | .object [] => .error (.invalidOperand field .noOperator)
  | .object operators =>
    operators.mapM fun (key, operand) => do .ok ⟨field, ← conditionOfJson key operand⟩
  | literal => do .ok [⟨field, .equals (← scalar "$eq" literal)⟩]

/-- The filter that a JSON document describes; null is the empty filter. -/
def ofJson : Json → Except Error Filter
  | .null => .ok empty
  | .object fields => do
    let clauses ← fields.mapM fun (field, json) => clausesOfField field json
    .ok ⟨clauses.flatten⟩
  | _ => .error (.invalidOperand "filter" .notObject)

end Filter

end LiveTable
