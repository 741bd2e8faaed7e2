import LiveTable.Filter
import LiveTable.Identifier

/-!
# Predicates

A filter as a statement uses it: tests that name fields and operators, with a placeholder for every
value, and the values in the order of the placeholders. Field names must be plain identifiers.
-/

namespace LiveTable

/-- A plain identifier passes; any other name is an error. -/
def checkName (name : String) : Except Error Unit :=
  if isIdentifier name then .ok () else .error (.invalidIdentifier name)

/-- All names pass, or the first that does not is the error. -/
def checkNames : List String → Except Error Unit
  | [] => .ok ()
  | name :: rest => do checkName name; checkNames rest

/-- A condition with placeholders in place of its values. -/
inductive TestOp
  | compare (op : CompareOp)
  /-- With the number of placeholders. -/
  | member (op : MemberOp) (count : Nat)
  deriving DecidableEq

namespace TestOp

/-- A row of placeholders. -/
def placeholders (count : Nat) : String := ", ".intercalate (List.replicate count "?")

/-- The operator and its placeholders in a statement. -/
def sql : TestOp → String
  | .compare op => op.sql ++ " ?"
  | .member op count => op.sql ++ " (" ++ placeholders count ++ ")"

/-- The number of placeholders. -/
def arity : TestOp → Nat
  | .compare _ => 1
  | .member _ count => count

end TestOp

/-- A test of one field. -/
structure Test where
  field : String
  op : TestOp
  deriving DecidableEq

/-- The test in a statement. -/
def Test.sql (t : Test) : String := t.field ++ " " ++ t.op.sql

namespace Condition

/-- The condition with placeholders. -/
def testOp : Condition → TestOp
  | .equals _ => .compare .eq
  | .compare op _ => .compare op
  | .member op values => .member op values.length

/-- The values behind the placeholders. -/
def operands : Condition → List Value
  | .equals v => [v]
  | .compare _ v => [v]
  | .member _ values => values

end Condition

/-- Tests and the values behind their placeholders, from left to right. -/
structure Predicate where
  tests : List Test
  params : List Value
  deriving DecidableEq

namespace Predicate

/-- The predicate of a filter, or the error of the first field that is no identifier. -/
def ofFilter (f : Filter) : Except Error Predicate := do
  checkNames (f.clauses.map (·.field))
  .ok { tests := f.clauses.map fun c => ⟨c.field, c.condition.testOp⟩
        params := f.clauses.flatMap fun c => c.condition.operands }

/-- No tests. -/
def isEmpty (p : Predicate) : Bool := p.tests.isEmpty

/-- The texts of the tests. -/
def clauses (p : Predicate) : List String := p.tests.map Test.sql

/-- The tests joined by AND. -/
def body (p : Predicate) : String := " AND ".intercalate p.clauses

/-- The condition of a statement, or nothing if there are no tests. -/
def whereClause (p : Predicate) : String :=
  if p.isEmpty then "" else "WHERE " ++ p.body

end Predicate

end LiveTable
