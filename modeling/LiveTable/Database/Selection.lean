import LiveTable.Database.Content
import LiveTable.Storage

/-!
# Selecting records

Names in a statement are resolved against the columns of its table, and the first name that stands
for nothing is a fault. A record is selected if every test of it is true; unknown is not enough.
-/

namespace LiveTable.Database

/-- A test whose field is resolved, with its operands. -/
structure ResolvedTest where
  reference : Reference
  affinity : Affinity
  op : TestOp
  operands : List Value

/-- Resolve the names at one place of a statement, from left to right. -/
def resolveNames (t : Table) (s : Statement) (place : Statement.Place) (skip : Nat) :
    List String → Except Fault (List Reference)
  | [] => .ok []
  | name :: rest =>
    match t.reference? name with
    | some reference => do .ok (reference :: (← resolveNames t s place (skip + 1) rest))
    | none => .error (.noSuchColumn name (some (s.offset place skip)))

/-- What the field of a test stands for. A test against the empty list does not look at its field,
so any name will do. -/
def resolveField (t : Table) (s : Statement) (skip : Nat) (test : Test) :
    Except Fault Reference :=
  if test.op.arity = 0 then .ok .number
  else
    match t.reference? test.field with
    | some reference => .ok reference
    | none => .error (.noSuchColumn test.field (some (s.offset .field skip)))

/-- Resolve the tests of a statement from left to right and give each its operands. -/
def resolveTests (t : Table) (s : Statement) (skip : Nat) :
    List Test → List Value → Except Fault (List ResolvedTest)
  | [], _ => .ok []
  | test :: tests, params => do
    let reference ← resolveField t s skip test
    let arity := test.op.arity
    let resolved : ResolvedTest :=
      { reference, affinity := t.referenceAffinity reference, op := test.op
        operands := (params.take arity).map bind }
    .ok (resolved :: (← resolveTests t s (skip + 1) tests (params.drop arity)))

/-- The test is membership in the empty list, which is false whatever its field. -/
def isNever (test : Test) : Bool :=
  match test.op with
  | .member .isIn 0 => true
  | _ => false

/-- The test that no record passes. -/
def never : ResolvedTest := ⟨.number, .none, .member .isIn 0, []⟩

/-- Resolve a condition. One with a test that is always false is false as a whole, and its names are
not looked at. -/
def resolveCondition (t : Table) (s : Statement) (tests : List Test) (params : List Value) :
    Except Fault (List ResolvedTest) :=
  if tests.any isNever then .ok [never] else resolveTests t s 0 tests params

/-- A record passes all tests. -/
def passes (tests : List ResolvedTest) (r : Record) : Bool :=
  tests.all fun t => test t.affinity t.op (r.get t.reference) t.operands == some true

/-- The number of placeholders of tests. -/
def arityOf : List Test → Nat
  | [] => 0
  | test :: rest => test.op.arity + arityOf rest

/-- Every placeholder has a value. -/
def checkCount (params : List Value) (needed : Nat) : Except Fault Unit :=
  if params.length = needed then .ok () else .error (.parameterCount params.length needed)

/-- The references of a projection, from left to right; the star stands for all columns. -/
def resolveProjection (t : Table) (s : Statement) (skip : Nat) :
    List String → Except Fault (List Reference)
  | [] => .ok []
  | name :: rest =>
    if name = "*" then do .ok (t.allReferences ++ (← resolveProjection t s (skip + 1) rest))
    else
      match t.reference? name with
      | some reference => do .ok (reference :: (← resolveProjection t s (skip + 1) rest))
      | none => .error (.noSuchColumn name (some (s.offset .projected skip)))

/-- A record stands no later than another by sort keys. -/
def notAfter : List (Reference × Direction) → Record → Record → Bool
  | [], _, _ => true
  | (reference, direction) :: rest, a, b =>
    let order := compareValues (a.get reference) (b.get reference)
    match (match direction with
      | .ascending => order
      | .descending => order.swap) with
    | .lt => true
    | .gt => false
    | .eq => notAfter rest a b

/-- Select values of the records of a table. -/
def Content.select (c : Content) (s : Statement) (projection : List String) (table : String)
    (tests : List Test) (keys : List SortKey) (params : List Value) :
    Except Fault ResultSet := do
  if let some fault := syntaxFault 0 s.pieces then throw fault
  match c.find? table with
  | none => .error (.noSuchTable table)
  | some t =>
    let references ← resolveProjection t s 0 projection
    let resolved ← resolveCondition t s tests params
    let sorted ← resolveNames t s .key 0 (keys.map (·.column))
    checkCount params (arityOf tests)
    let found := t.records.filter (passes resolved)
    let order := sorted.zip (keys.map (·.direction))
    .ok { names := references.map t.referenceName
          rows := (found.mergeSort (notAfter order)).map fun r => references.map r.get }

end LiveTable.Database
