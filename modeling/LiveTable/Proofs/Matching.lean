import LiveTable.Proofs.Numbers

/-!
# The records that a filter selects

A filter is translated for selections, deletions and updates alike: its clauses become the tests of a
statement, and their values stand behind the placeholders, in an update behind the values that are assigned.
A storage deals the values out to the placeholders from left to right and looks at one record at a time. So
whatever the statement, the records for which the tests hold are those that meet all clauses of the filter.
-/

namespace LiveTable

/-! ## What statements see of records -/

/-- What the statements on a table see of its records. -/
structure Frame (ρ : Type) where
  /-- A test of a field of this name reads the record. -/
  column : String → Prop
  /-- A test is true of the record, with some values behind its placeholders. -/
  meets : ρ → Test → List Value → Bool
  /-- The record as a selection of all columns yields it. -/
  row : ρ → Row

namespace Frame

variable {ρ : Type} (frame : Frame ρ) (f : Filter) (records : List ρ)

/-- The record passes tests to which values are dealt out from left to right. -/
def passes : List Test → List Value → ρ → Bool
  | [], _, _ => true
  | test :: rest, params, r =>
    frame.meets r test (params.take test.op.arity) && passes rest (params.drop test.op.arity) r

/-- All clauses of the filter are true of the record. -/
def meetsAll (r : ρ) : Bool :=
  f.clauses.all fun c => frame.meets r ⟨c.field, c.condition.testOp⟩ c.condition.operands

/-- The records that the filter selects. -/
def hits : List ρ := records.filter (frame.meetsAll f)

/-- The other records. -/
def misses : List ρ := records.filter fun r => !frame.meetsAll f r

end Frame

/-- A storage filters the records that it has in a table: those are selected, deleted and updated that pass
the tests of the statement, if the tests read the record. The values of an update stand in front of those of
its tests. -/
structure Backend.Filters {σ ρ : Type} (backend : Backend σ) (table : String) (frame : Frame ρ)
    (has : σ → List ρ → Prop) : Prop where
  selects : ∀ storage records, has storage records → ∀ tests keys params rows,
    (∀ test ∈ tests, frame.column test.field) →
    (backend.answer ⟨.query, .select ["*"] table tests keys, params⟩ storage).1 = .rows rows →
      rows.Perm ((records.filter (frame.passes tests params)).map frame.row)
  deletes : ∀ storage records, has storage records → ∀ tests params id count,
    (∀ test ∈ tests, frame.column test.field) →
    (backend.answer ⟨.run, .delete table tests, params⟩ storage).1 = .changed id count →
      count = (records.filter (frame.passes tests params)).length ∧
      ∃ left, has (backend.answer ⟨.run, .delete table tests, params⟩ storage).2 left ∧
        left.Perm (records.filter fun r => !frame.passes tests params r)
  updates : ∀ storage records, has storage records → ∀ columns tests params id count, columns ≠ [] →
    (∀ test ∈ tests, frame.column test.field) →
    (backend.answer ⟨.run, .update table columns tests, params⟩ storage).1 = .changed id count →
      count = (records.filter (frame.passes tests (params.drop columns.length))).length ∧
      ∃ left changed, has (backend.answer ⟨.run, .update table columns tests, params⟩ storage).2 left ∧
        left.Perm ((records.filter fun r => !frame.passes tests (params.drop columns.length) r) ++ changed) ∧
        changed.length = count

section Store

variable {σ : Type} (backend : Backend σ) (storage : σ)

/-- A selection through the store succeeds and yields these rows. -/
def Backend.Selects (spec : QuerySpec) (rows : List Row) : Prop :=
  ∃ call, Request.select spec = .ok call ∧ (backend.answer call storage).1 = .rows rows

/-- A deletion through the store succeeds, with its count of changes and the storage after it. -/
def Backend.Deletes (table : String) (f : Filter) (count : Nat) (later : σ) : Prop :=
  ∃ call id, Request.delete table f = .ok call ∧ backend.answer call storage = (.changed id count, later)

/-- An update through the store succeeds, with its count of changes and the storage after it. -/
def Backend.Updates (table : String) (f : Filter) (row : Row) (count : Nat) (later : σ) : Prop :=
  ∃ call id, Request.update table f row = .ok call ∧ backend.answer call storage = (.changed id count, later)

end Store

/-! ## Tests and clauses -/

/-- The tests that the clauses become. -/
def testsOf (clauses : List Clause) : List Test := clauses.map fun c => ⟨c.field, c.condition.testOp⟩

/-- The values behind the placeholders of the tests. -/
def paramsOf (clauses : List Clause) : List Value := clauses.flatMap fun c => c.condition.operands

theorem ofFilter_ok {f : Filter} {predicate : Predicate} (translated : Predicate.ofFilter f = .ok predicate) :
    predicate = ⟨testsOf f.clauses, paramsOf f.clauses⟩ := (ofFilter_eq_ok.mp translated).2

theorem length_operands (condition : Condition) : condition.operands.length = condition.testOp.arity := by
  cases condition <;> rfl

section Filters

variable {σ ρ : Type} {backend : Backend σ} {table : String} {frame : Frame ρ} {has : σ → List ρ → Prop}
  {storage later : σ} {records : List ρ} {f : Filter}

/-- Each test gets the values of its clause. -/
theorem Frame.passes_testsOf (frame : Frame ρ) (clauses : List Clause) (r : ρ) :
    frame.passes (testsOf clauses) (paramsOf clauses) r =
      clauses.all fun c => frame.meets r ⟨c.field, c.condition.testOp⟩ c.condition.operands := by
  induction clauses with
  | nil => rfl
  | cons c rest ih =>
    have front : (paramsOf (c :: rest)).take c.condition.testOp.arity = c.condition.operands := by
      rw [← length_operands]
      exact List.take_left
    have behind : (paramsOf (c :: rest)).drop c.condition.testOp.arity = paramsOf rest := by
      rw [← length_operands]
      exact List.drop_left
    rw [testsOf, List.map_cons, Frame.passes, front, behind, List.all_cons]
    exact congrArg _ ih

theorem Frame.passes_filter (frame : Frame ρ) (f : Filter) :
    frame.passes (testsOf f.clauses) (paramsOf f.clauses) = frame.meetsAll f :=
  funext fun r => frame.passes_testsOf f.clauses r

theorem columns_testsOf (columns : ∀ c ∈ f.clauses, frame.column c.field) :
    ∀ test ∈ testsOf f.clauses, frame.column test.field := by
  intro test member
  obtain ⟨c, clause, rfl⟩ := List.mem_map.mp member
  exact columns c clause

/-- A selection of all columns yields the records that the filter selects. -/
theorem Backend.Filters.hits (filters : backend.Filters table frame has) (state : has storage records)
    (columns : ∀ c ∈ f.clauses, frame.column c.field) {order : SortOrder} {rows : List Row}
    (selects : backend.Selects storage ⟨table, [], f, order⟩ rows) :
    rows.Perm ((frame.hits f records).map frame.row) := by
  obtain ⟨call, made, yields⟩ := selects
  obtain ⟨-, -, predicate, translated, -, rfl⟩ := Request.select_eq_ok.mp made
  cases ofFilter_ok translated
  have found := filters.selects storage records state _ _ _ rows (columns_testsOf columns) yields
  rwa [frame.passes_filter f] at found

/-- A deletion takes away the records that the filter selects. -/
theorem Backend.Filters.deleted (filters : backend.Filters table frame has) (state : has storage records)
    (columns : ∀ c ∈ f.clauses, frame.column c.field) {count : Nat}
    (deletes : backend.Deletes storage table f count later) : count = (frame.hits f records).length ∧
      ∃ left, has later left ∧ left.Perm (frame.misses f records) := by
  obtain ⟨call, id, made, answers⟩ := deletes
  obtain ⟨-, predicate, translated, rfl⟩ := Request.delete_eq_ok.mp made
  cases ofFilter_ok translated
  have found := filters.deletes storage records state _ _ id count (columns_testsOf columns)
    (congrArg Prod.fst answers)
  rwa [congrArg Prod.snd answers, frame.passes_filter f] at found

/-- An update changes the records that the filter selects, and leaves the others. -/
theorem Backend.Filters.updated (filters : backend.Filters table frame has) (state : has storage records)
    (columns : ∀ c ∈ f.clauses, frame.column c.field) {row : Row} {count : Nat} (given : row.names ≠ [])
    (updates : backend.Updates storage table f row count later) : count = (frame.hits f records).length ∧
      ∃ left changed, has later left ∧ left.Perm (frame.misses f records ++ changed) ∧
        changed.length = count := by
  obtain ⟨call, id, made, answers⟩ := updates
  obtain ⟨-, -, predicate, translated, rfl⟩ := Request.update_eq_ok.mp made
  cases ofFilter_ok translated
  -- The values of the filter stand behind those of the row.
  have behind : (row.values ++ paramsOf f.clauses).drop row.names.length = paramsOf f.clauses := by
    have same : row.names.length = row.values.length := by simp [Ordered.names, Ordered.values]
    rw [same]
    exact List.drop_left
  have found := filters.updates storage records state _ _ _ id count given (columns_testsOf columns)
    (congrArg Prod.fst answers)
  rwa [congrArg Prod.snd answers, behind, frame.passes_filter f] at found

end Filters

/-! ## Databases in memory -/

namespace Database

variable {t : Table} {f : Filter} {r : Record} {db db' : Database} {table : String}

/-- The clause is true of the record: its test is neither false nor unknown. -/
def Table.meets (t : Table) (r : Record) (c : Clause) : Bool :=
  match t.reference? c.field with
  | some reference =>
    test (t.referenceAffinity reference) c.condition.testOp (r.get reference)
      (c.condition.operands.map bind) == some true
  | none => false

/-- All clauses of the filter are true of the record. -/
def Table.meetsAll (t : Table) (f : Filter) (r : Record) : Bool := f.clauses.all (t.meets r)

/-- What statements see of the records of a table: a test is true of a record if it is neither false nor
unknown. In a test, the words for the time are not columns. -/
def Table.frame (t : Table) : Frame Record where
  column name := (t.columnIndex? name).isSome = true ∧ isTimeWord name = false
  meets r asked params :=
    match t.reference? asked.field with
    | some reference =>
      test (t.referenceAffinity reference) asked.op (r.get reference) (params.map bind) == some true
    | none => false
  row r := ResultSet.keyed (t.allReferences.map t.referenceName) (t.allReferences.map r.get)

/-- A column is what its name stands for, unless the name is a word for the time. -/
theorem reference?_column {name : String} {i : Nat} (found : t.columnIndex? name = some i)
    (plain : isTimeWord name = false) :
    t.reference? name = some (if t.numberColumn? = some i then .number else .cell i) := by
  simp [Table.reference?, Table.columnReference?, found, plain]

section Accepted

variable {c c' : Content} {s : Statement} {params : List Value} {tests : List Test} {count : Nat}
  {records : List Record}

theorem select_ok {projection : List String} {keys : List SortKey} {result : ResultSet}
    (accepted : c.select s projection table tests keys params = .ok result) :
    ∃ t references resolved order, c.find? table = some t ∧
      resolveProjection t s 0 projection = .ok references ∧ resolveCondition t s tests params = .ok resolved ∧
      result = ⟨references.map t.referenceName,
        ((t.records.filter (passes resolved)).mergeSort order).map fun r => references.map r.get⟩ := by
  simp only [Content.select] at accepted
  split at accepted
  · cases accepted
  · split at accepted
    · cases accepted
    · rename_i t found
      simp only [bind_eq_ok] at accepted
      obtain ⟨references, projects, resolved, resolves, sorted, -, -, -, same⟩ := accepted
      cases same
      exact ⟨t, references, resolved, _, found, projects, resolves, rfl⟩

end Accepted

/-- An answer that is no failure is what executing the statement gives. -/
theorem answer_ok {call : Call} {a : Answer} (given : resolveVerbatim call.statement = call.statement)
    (succeeds : ∀ message, a ≠ .failed message) (answers : (db.answer call).1 = a) :
    ∃ db', db.execute call.params call.statement = .ok (a, db') ∧ (db.answer call).2 = db' := by
  unfold answer at answers ⊢
  rw [given] at answers ⊢
  cases done : db.execute call.params call.statement with
  | ok result =>
    rw [done] at answers
    exact ⟨result.2, congrArg _ (Prod.ext answers rfl), rfl⟩
  | error fault =>
    rw [done] at answers
    exact absurd answers.symm (succeeds _)

end Database

/-! ## What a filter selects -/

section Filters

variable {σ ρ : Type} {backend : Backend σ} {table : String} {frame : Frame ρ} {has : σ → List ρ → Prop}
  {storage : σ} {records : List ρ} {f : Filter}

end Filters

namespace Database

/-- Notes whose priorities are one, three, seven and unknown. -/
def notes : Session.Progress Database := Session.play memoryBackend 20 (.start .inMemory true 1000, []) [
  .createTable "notes" ["title:text", "priority:integer"],
  .insert "notes" (.value (.ofList [("title", .text "a"), ("priority", .integer 1)])),
  .insert "notes" (.value (.ofList [("title", .text "b"), ("priority", .integer 3)])),
  .insert "notes" (.value (.ofList [("title", .text "c"), ("priority", .integer 7)])),
  .insert "notes" (.value (.ofList [("title", .text "d")]))]

/-- The table of these notes. -/
def noteTable : Table where
  name := "notes"
  columns := [.ofDef "title" (.plain .text), .ofDef "priority" (.plain .integer),
    .ofDef "added" (.plain .integer)]
  records := [⟨1, [.text "a", .integer 1, .integer 1000]⟩, ⟨2, [.text "b", .integer 3, .integer 1000]⟩,
    ⟨3, [.text "c", .integer 7, .integer 1000]⟩, ⟨4, [.text "d", .null, .integer 1000]⟩]
  autoincrement := false
  readOnly := false

/-- The database that holds them. -/
def noteStore : Database := ⟨⟨[noteTable], []⟩, .memory, 4⟩

theorem storage_notes : notes.1.storage = noteStore := by decide +kernel

end Database

end LiveTable
