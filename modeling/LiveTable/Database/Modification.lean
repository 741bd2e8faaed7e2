import LiveTable.Database.Selection

/-!
# Changing records

Inserting, updating and deleting. A column keeps its values to its affinity, a column without nulls
refuses them, and record numbers and the values of a unique column stay different. The records of an
update are changed one after the other; a statement that fails changes nothing.
-/

namespace LiveTable.Database

/-- An integer of sixty-four bits that a value is as a record number. -/
def asNumber (v : Value) : Except Fault Int64 :=
  match toInteger (toNumber v) with
  | .integer n => .ok n
  | _ => .error .mismatch

/-- The greatest record number that there can be. -/
def maxNumber : Int64 := Int64.ofInt (pow2 63 - 1 : Nat)

/-- A number that no record has: the least that is free. -/
def freeNumber (t : Table) : Except Fault Int64 :=
  let candidates := (List.range (t.records.length + 1)).map fun i => Int64.ofNat (i + 1)
  match candidates.find? fun n => t.records.all fun r => r.number ≠ n with
  | some n => .ok n
  | none => .error .full

/-- The number of a new record for which none is given: the one after the greatest in use. Behind the
greatest that there can be, growing numbers come to an end, and a table without them takes up a number
that is free. -/
def freshNumber (c : Content) (t : Table) : Except Fault Int64 :=
  let used : Option Int64 :=
    if t.autoincrement then
      let noted := c.sequence t.name
      some (match t.lastNumber? with
        | some last => if noted < last then last else noted
        | none => noted)
    else t.lastNumber?
  match used with
  | none => .ok 1
  | some n =>
    if n = maxNumber then (if t.autoincrement then .error .full else freeNumber t) else .ok (n + 1)

/-- The first null in a column that has none. The column that names the record number is not looked
at. -/
def checkNotNull (t : Table) (cells : List Value) : Except Fault Unit :=
  let isBad : TableColumn × Value → Bool := fun (column, v) => column.notNull && v.isNull
  let pairs := (t.columns.zip cells).zipIdx.filter fun (_, i) => t.numberColumn? ≠ some i
  match pairs.find? fun (pair, _) => isBad pair with
  | some ((column, _), _) => .error (.notNull t.name column.name)
  | none => .ok ()

/-- No other record has the number. -/
def checkNumber (t : Table) (records : List Record) (n : Int64) : Except Fault Unit :=
  if records.any fun r => r.number = n then .error (.unique t.name t.numberName) else .ok ()

/-- No other record has the value of the unique column. -/
def checkUnique (t : Table) (records : List Record) (cells : List Value) : Except Fault Unit :=
  match t.uniqueColumn? with
  | none => .ok ()
  | some i =>
    let v := cells[i]?.getD .null
    let taken := records.any fun r =>
      compareKnown (r.cells[i]?.getD .null) v == some .eq
    if taken then .error (.unique t.name (t.column i).name) else .ok ()

/-- The first value that is given for a column. -/
def firstFor (given : List (Reference × Value)) (index : Nat) : Option Value :=
  (given.find? fun (reference, _) => reference == .cell index).map Prod.snd

/-- The last value that is given for a reference. -/
def lastFor (given : List (Reference × Value)) (reference : Reference) : Option Value :=
  (given.reverse.find? fun (r, _) => r == reference).map Prod.snd

/-- The references of the columns that are inserted into, with the table as the statement names
it. -/
def resolveInserted (t : Table) (table : String) :
    List String → Except Fault (List Reference)
  | [] => .ok []
  | name :: rest =>
    match t.columnReference? name with
    | some reference => do .ok (reference :: (← resolveInserted t table rest))
    | none => .error (.noInsertColumn table name)

/-- The references of the columns that are assigned to. -/
def resolveAssigned (t : Table) : List String → Except Fault (List Reference)
  | [] => .ok []
  | name :: rest =>
    match t.columnReference? name with
    | some reference => do .ok (reference :: (← resolveAssigned t rest))
    | none => .error (.noSuchColumn name none)

/-- A table that may be changed. -/
def Content.findModifiable (c : Content) (name : String) : Except Fault Table :=
  match c.find? name with
  | none => .error (.noSuchTable name)
  | some t => if t.readOnly then .error (.notModifiable t.name) else .ok t

/-- Insert a record. Of several values for one column the first is taken, of several record numbers
the last; null asks for a fresh number. -/
def Content.insert (c : Content) (s : Statement) (table : String) (columns : List String)
    (params : List Value) : Except Fault (Int64 × Content) := do
  if let some fault := syntaxFault 0 s.pieces then throw fault
  let t ← c.findModifiable table
  let references ← resolveInserted t table columns
  checkCount params columns.length
  let given := references.zip (params.map bind)
  let asked := (lastFor given .number).filter fun v => !v.isNull
  let number ← match asked with
    | some v => asNumber v
    | none => freshNumber c t
  let cells := t.columns.zipIdx.map fun (column, i) =>
    if t.numberColumn? = some i then .integer number
    else column.affinity.store ((firstFor given i).getD .null)
  checkNotNull t cells
  if asked.isSome then checkNumber t t.records number
  checkUnique t t.records cells
  let changed := c.setTable { t with records := insertRecord ⟨number, cells⟩ t.records }
  let noted :=
    if t.autoincrement then
      let before := c.sequence t.name
      changed.setSequence t.name (if before < number then number else before)
    else changed
  .ok (number, noted)

/-- A record after assignments. Of several values for one column the last is taken. -/
def assign (t : Table) (given : List (Reference × Value)) (r : Record) : Except Fault Record := do
  let number ← match lastFor given .number with
    | some v => asNumber v
    | none => .ok r.number
  let cells := r.cells.zipIdx.map fun (v, i) =>
    if t.numberColumn? = some i then .integer number
    else match lastFor given (.cell i) with
      | some v => (t.column i).affinity.store v
      | none => v
  .ok ⟨number, cells⟩

/-- Assign to the records of some numbers, one after the other. -/
def assignAll (t : Table) (given : List (Reference × Value)) (records : List Record) :
    List Record → Except Fault (List Record)
  | [] => .ok records
  | r :: rest => do
    let changed ← assign t given r
    let others := records.filter fun other => other.number ≠ r.number
    checkNotNull t changed.cells
    if changed.number ≠ r.number then checkNumber t others changed.number
    checkUnique t others changed.cells
    assignAll t given (insertRecord changed others) rest

/-- Update the records that pass the tests; the number of them is the result. -/
def Content.update (c : Content) (s : Statement) (table : String) (columns : List String)
    (tests : List Test) (params : List Value) : Except Fault (Nat × Content) := do
  if columns.isEmpty then
    if isReserved table then throw (.syntaxNear table (s.offset .table 0))
    else if tests.isEmpty then throw .incomplete
    else throw (.syntaxNear "WHERE" ("UPDATE ".length + table.utf8ByteSize + " SET  ".length))
  if let some fault := syntaxFault 0 s.pieces then throw fault
  let t ← c.findModifiable table
  let references ← resolveAssigned t columns
  let resolved ← resolveCondition t s tests (params.drop columns.length)
  checkCount params (columns.length + arityOf tests)
  let given := references.zip ((params.take columns.length).map bind)
  let found := t.records.filter (passes resolved)
  let records ← assignAll t given t.records found
  .ok (found.length, c.setTable { t with records })

/-- Delete the records that pass the tests; the number of them is the result. -/
def Content.delete (c : Content) (s : Statement) (table : String) (tests : List Test)
    (params : List Value) : Except Fault (Nat × Content) := do
  if let some fault := syntaxFault 0 s.pieces then throw fault
  let t ← c.findModifiable table
  let resolved ← resolveCondition t s tests params
  checkCount params (arityOf tests)
  let (found, kept) := t.records.partition (passes resolved)
  .ok (found.length, c.setTable { t with records := kept })

end LiveTable.Database
