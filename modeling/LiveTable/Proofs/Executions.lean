import LiveTable.Database
import LiveTable.Proofs.Requests

/-!
# What an accepted statement does

A database checks a statement in many steps, but what a statement that passes does to the content is
little. It is written down here once, with the conditions under which it is done; whatever statements keep
is read off from it.
-/

namespace LiveTable

theorem sameName_trans {a b d : String} (first : Text.sameName a b = true)
    (second : Text.sameName b d = true) : Text.sameName a d = true := by
  rw [Text.sameName, beq_iff_eq] at *
  exact first.trans second

theorem sameName_symm {a b : String} (same : Text.sameName a b = true) : Text.sameName b a = true := by
  rw [Text.sameName, beq_iff_eq] at *
  exact same.symm

namespace Database

variable {c c' : Content} {db : Database} {s : Statement} {params : List Value}

/-- The cells of a new record: the number in the column that names it, and beside it the first value that
is given for each column. -/
def Table.filled (t : Table) (given : List (Reference × Value)) (number : Int64) : List Value :=
  t.columns.zipIdx.map fun (column, i) =>
    if t.numberColumn? = some i then .integer number
    else column.affinity.store ((firstFor given i).getD .null)

/-- Another table after a table is dropped: the table of sequences forgets it. -/
def Table.forgetting (t other : Table) : Table :=
  if t.autoincrement && other.name = sequenceName then
    { other with records := other.records.filter fun r => r.cells.head? ≠ some (.text t.name) }
  else other

/-- The statement asks and changes nothing. -/
def reads : Statement → Bool
  | .select .. | .tableList | .tableInfo _ | .setting _ => true
  | _ => false

/-- What a statement that a database accepts answers and leaves of the content. -/
inductive Executed (c : Content) (params : List Value) : Statement → Answer → Content → Prop
  | tableKept {name : String} {columns : List (String × ColumnDef)} {t : Table}
    (found : c.find? name = some t) : Executed c params (.createTable name columns) .done c
  | tableCreated {name : String} {columns : List (String × ColumnDef)} {offset : Nat → Nat} {t : Table}
    (proper : isSystemName t.name = false) (new : c.find? name = none) (named : t.name = name)
    (declares : declareAll name offset [] columns = .ok t.columns) (empty : t.records = [])
    {more : List Table} (sequences : ∀ other ∈ more, other = sequenceTable) :
    Executed c params (.createTable name columns) .done { c with tables := c.tables ++ [t] ++ more }
  | columnAdded {table column : String} {d : ColumnDef} {t : Table} {added : TableColumn}
    (found : c.find? table = some t) (proper : isSystemName t.name = false) :
    Executed c params (.addColumn table column d) .done (c.setTable { t with
      columns := t.columns ++ [added]
      records := t.records.map fun r => { r with cells := r.cells ++ [.null] } })
  | indexKept {table column : String} {t : Table} {i : Index} (found : c.find? table = some t)
    (taken : c.findIndex? (Statement.indexName table column) = some i) :
    Executed c params (.createIndex table column) .done c
  | indexCreated {table column : String} {t : Table} (found : c.find? table = some t)
    (proper : isSystemName t.name = false) (free : c.findIndex? (Statement.indexName table column) = none) :
    Executed c params (.createIndex table column) .done { c with
      indexes := c.indexes ++ [⟨Statement.indexName table column, t.name, column⟩] }
  | tableMissing {name : String} (missing : c.find? name = none) :
    Executed c params (.dropTable name) .done c
  | tableDropped {name : String} {t : Table} (found : c.find? name = some t) :
    Executed c params (.dropTable name) .done {
      tables := (c.tables.filter fun other => other.name ≠ t.name).map t.forgetting
      indexes := c.indexes.filter fun i => i.table ≠ t.name }
  | inserted {table : String} {columns : List String} {t : Table} {references : List Reference}
    {number : Int64} {changed c' : Content} (found : c.findModifiable table = .ok t)
    (resolves : resolveInserted t table columns = .ok references)
    (puts : changed = c.setTable { t with
      records := insertRecord ⟨number, t.filled (references.zip (params.map bind)) number⟩ t.records })
    (notes : c' = changed ∨ ∃ n, c' = changed.setSequence t.name n) :
    Executed c params (.insert table columns) (.changed number 1) c'
  | updated {table : String} {columns : List String} {tests : List Test} {t : Table}
    {references : List Reference} {resolved : List ResolvedTest} {records : List Record} {last : Int64}
    {changes : Nat} (found : c.findModifiable table = .ok t)
    (resolves : resolveAssigned t columns = .ok references)
    (assigns : assignAll t (references.zip ((params.take columns.length).map bind)) t.records
      (t.records.filter (passes resolved)) = .ok records) :
    Executed c params (.update table columns tests) (.changed last changes)
      (c.setTable { t with records })
  | deleted {table : String} {tests : List Test} {t : Table} {kept : List Record} {last : Int64}
    {changes : Nat} (found : c.findModifiable table = .ok t) (sublist : kept.Sublist t.records) :
    Executed c params (.delete table tests) (.changed last changes) (c.setTable { t with records := kept })
  | asked {s : Statement} {answer : Answer} (reads : reads s = true) : Executed c params s answer c

/-! ## Tables of a content -/

theorem mem_setTable {t other : Table} (member : other ∈ (c.setTable t).tables) :
    other = t ∨ other ∈ c.tables ∧ other.name ≠ t.name := by
  obtain ⟨old, present, rfl⟩ := List.mem_map.mp member
  by_cases same : old.name = t.name
  · exact .inl (if_pos same)
  · rw [if_neg same]
    exact .inr ⟨present, same⟩

theorem indexes_setSequence (c : Content) (table : String) (n : Int64) :
    (c.setSequence table n).indexes = c.indexes := by
  unfold Content.setSequence
  split <;> rfl

/-- The schema is no table of the content: it cannot be changed and has a name of the database's own. -/
theorem find?_some {name : String} {t : Table} (found : c.find? name = some t) :
    (t ∈ c.tables ∧ Text.sameName t.name name = true) ∨ t.readOnly = true ∧ isSystemName t.name = true := by
  unfold Content.find? at found
  split at found
  · rename_i own schema
    cases found
    have system : isSystemName own = true := by
      unfold schemaName? at schema
      split at schema <;> cases schema <;> decide +kernel
    exact .inr ⟨rfl, system⟩
  · have same := List.find?_some found
    exact .inl ⟨List.mem_of_find?_eq_some found, same⟩

theorem find?_proper {name : String} {t : Table} (found : c.find? name = some t)
    (proper : isSystemName t.name = false) : t ∈ c.tables ∧ Text.sameName t.name name = true := by
  refine (find?_some found).resolve_right fun own => ?_
  rw [own.2] at proper
  cases proper

/-- A table that may be changed is found among the tables of the content. -/
theorem find?_of_findModifiable {table : String} {t : Table} (found : c.findModifiable table = .ok t) :
    c.find? table = some t ∧ schemaName? table = none ∧
      c.tables.find? (fun t => Text.sameName t.name table) = some t := by
  unfold Content.findModifiable at found
  split at found
  · cases found
  · rename_i t' known
    split at found
    · cases found
    · rename_i changeable
      cases found
      refine ⟨known, ?_⟩
      unfold Content.find? at known
      split at known
      · cases known
        exact absurd rfl changeable
      · rename_i proper
        exact ⟨proper, known⟩

theorem findModifiable_ok {name : String} {t : Table} (found : c.findModifiable name = .ok t) :
    t ∈ c.tables ∧ Text.sameName t.name name = true := by
  obtain ⟨-, -, known⟩ := find?_of_findModifiable found
  have same := List.find?_some known
  exact ⟨List.mem_of_find?_eq_some known, same⟩

theorem isSystemName_same {a b : String} (same : Text.sameName a b = true) :
    isSystemName a = isSystemName b := by
  rw [Text.sameName, beq_iff_eq] at same
  rw [isSystemName, isSystemName, same]

/-- Noting a number changes the table of sequences only. -/
theorem mem_setSequence {table : String} {n : Int64} {other : Table}
    (member : other ∈ (c.setSequence table n).tables) :
    other ∈ c.tables ∨ ∃ t ∈ c.tables, isSystemName t.name = true ∧ other.name = t.name ∧
      other.columns = t.columns := by
  unfold Content.setSequence at member
  split at member
  · exact .inl member
  · rename_i t found
    have none : schemaName? sequenceName = none := by decide
    have known := found
    simp only [Content.find?, none] at known
    have same := List.find?_some known
    have system : isSystemName t.name = true :=
      (isSystemName_same same).trans (by decide +kernel : isSystemName sequenceName = true)
    rcases mem_setTable member with rfl | ⟨old, -⟩
    · exact .inr ⟨t, List.mem_of_find?_eq_some known, system, rfl, rfl⟩
    · exact .inl old

/-- What is left of another table after a table is dropped. -/
theorem forgetting_cases (t other : Table) : (t.forgetting other).name = other.name ∧
    (t.forgetting other).columns = other.columns ∧
      (t.forgetting other).records.Sublist other.records := by
  unfold Table.forgetting
  split
  · exact ⟨rfl, rfl, List.filter_sublist⟩
  · exact ⟨rfl, rfl, .refl _⟩

/-! ## Checks in front of the work -/

theorem guard_eq_ok {ε α : Type} {p : Prop} [Decidable p] {fault : ε} {x : Except ε α} {a : α} :
    (if p then (throw fault >>= fun _ : Unit => x) else x) = .ok a ↔ ¬p ∧ x = .ok a := by
  have throws : (throw fault >>= fun _ : Unit => x) ≠ .ok a := nofun
  by_cases holds : p <;> simp [holds, throws]

/-! ## Definitions -/

theorem createTable_ok {name : String} {columns : List (String × ColumnDef)}
    (accepted : c.createTable s name columns = .ok c') :
    Executed c params (.createTable name columns) .done c' := by
  simp only [Content.createTable, guard_eq_ok] at accepted
  obtain ⟨-, proper, accepted⟩ := accepted
  split at accepted
  · rename_i known
    obtain ⟨t, found⟩ := Option.isSome_iff_exists.mp known
    obtain ⟨-, -, same⟩ := bind_eq_ok.mp accepted
    cases same
    exact .tableKept found
  · rename_i new
    split at accepted
    · cases accepted
    · obtain ⟨declared, declares, same⟩ := bind_eq_ok.mp accepted
      cases same
      have sequences : ∀ other ∈ (if ((columns.any fun e => e.2.autoincrement) &&
          (c.find? sequenceName).isNone) = true then [sequenceTable] else []),
          other = sequenceTable := by
        intro other member
        split at member
        · exact List.mem_singleton.mp member
        · cases member
      let t : Table := ⟨name, declared, [], columns.any fun e => e.2.autoincrement, false⟩
      exact Executed.tableCreated (t := t) (Bool.eq_false_iff.mpr proper) (by simpa using new) rfl
        declares rfl sequences

theorem addColumn_ok {table column : String} {d : ColumnDef}
    (accepted : c.addColumn s table column d = .ok c') :
    Executed c params (.addColumn table column d) .done c' := by
  simp only [Content.addColumn, guard_eq_ok] at accepted
  obtain ⟨-, accepted⟩ := accepted
  split at accepted
  · cases accepted
  · rename_i t found
    simp only [guard_eq_ok, bind_eq_ok] at accepted
    obtain ⟨proper, -, -, added, -, -, -, same⟩ := accepted
    cases same
    exact .columnAdded found (Bool.eq_false_iff.mpr proper)

theorem createIndex_ok {table column : String} (accepted : c.createIndex s table column = .ok c') :
    Executed c params (.createIndex table column) .done c' := by
  simp only [Content.createIndex, guard_eq_ok] at accepted
  obtain ⟨-, -, accepted⟩ := accepted
  split at accepted
  · cases accepted
  · rename_i t found
    obtain ⟨proper, accepted⟩ := guard_eq_ok.mp accepted
    split at accepted
    · cases accepted
    · split at accepted
      · rename_i known
        obtain ⟨i, taken⟩ := Option.isSome_iff_exists.mp known
        cases accepted
        exact .indexKept found taken
      · rename_i free
        simp only [guard_eq_ok] at accepted
        obtain ⟨-, -, same⟩ := accepted
        cases same
        exact .indexCreated found (Bool.eq_false_iff.mpr proper) (by simpa using free)

theorem dropTable_ok {name : String} (accepted : c.dropTable s name = .ok c') :
    Executed c params (.dropTable name) .done c' := by
  simp only [Content.dropTable] at accepted
  split at accepted
  · cases accepted
  · split at accepted
    · rename_i missing
      cases accepted
      exact .tableMissing missing
    · rename_i t found
      obtain ⟨-, same⟩ := guard_eq_ok.mp accepted
      cases same
      exact .tableDropped found

/-! ## Changes of records -/

theorem insert_ok {table : String} {columns : List String} {number : Int64}
    (accepted : c.insert s table columns params = .ok (number, c')) :
    Executed c params (.insert table columns) (.changed number 1) c' := by
  simp only [Content.insert] at accepted
  split at accepted
  · cases accepted
  · simp only [bind_eq_ok] at accepted
    obtain ⟨t, found, references, resolves, -, -, accepted⟩ := accepted
    let put (n : Int64) : Content := c.setTable { t with
      records := insertRecord ⟨n, t.filled (references.zip (params.map bind)) n⟩ t.records }
    have finish {n m : Int64} (same : (n, if t.autoincrement = true then
        (put n).setSequence t.name m else put n) = (number, c')) :
        Executed c params (.insert table columns) (.changed number 1) c' := by
      cases same
      refine .inserted found resolves rfl ?_
      split
      · exact .inr ⟨_, rfl⟩
      · exact .inl rfl
    split at accepted
    all_goals
      obtain ⟨n, -, accepted⟩ := bind_eq_ok.mp accepted
      obtain ⟨-, -, accepted⟩ := bind_eq_ok.mp accepted
      split at accepted
      · obtain ⟨-, -, accepted⟩ := bind_eq_ok.mp accepted
        obtain ⟨-, -, same⟩ := bind_eq_ok.mp accepted
        exact finish (Except.ok.inj same)
      · obtain ⟨-, -, same⟩ := bind_eq_ok.mp accepted
        exact finish (Except.ok.inj same)

theorem update_ok {table : String} {columns : List String} {tests : List Test} {changes : Nat}
    {last : Int64} (accepted : c.update s table columns tests params = .ok (changes, c')) :
    Executed c params (.update table columns tests) (.changed last changes) c' := by
  simp only [Content.update] at accepted
  split at accepted
  · -- Without columns, each of three faults is in the way.
    split at accepted
    · cases accepted
    · split at accepted <;> cases accepted
  · split at accepted
    · cases accepted
    · simp only [bind_eq_ok] at accepted
      obtain ⟨t, found, references, resolves, resolved, -, -, -, records, assigns, same⟩ := accepted
      cases same
      exact .updated found resolves assigns

theorem delete_ok {table : String} {tests : List Test} {changes : Nat} {last : Int64}
    (accepted : c.delete s table tests params = .ok (changes, c')) :
    Executed c params (.delete table tests) (.changed last changes) c' := by
  simp only [Content.delete] at accepted
  split at accepted
  · cases accepted
  · simp only [bind_eq_ok] at accepted
    obtain ⟨t, found, resolved, -, -, -, same⟩ := accepted
    cases same
    refine .deleted found ?_
    rw [List.partition_eq_filter_filter]
    exact List.filter_sublist

/-! ## Whole statements -/

/-- A statement that a database accepts does what is written down for it. -/
theorem executed {answer : Answer} {db' : Database} (accepted : db.execute params s = .ok (answer, db')) :
    Executed db.content params s answer db'.content := by
  cases s with
  | createTable table columns =>
    obtain ⟨c', passes, same⟩ := bind_eq_ok.mp accepted
    cases same
    exact createTable_ok passes
  | addColumn table column d =>
    obtain ⟨c', passes, same⟩ := bind_eq_ok.mp accepted
    cases same
    exact addColumn_ok passes
  | createIndex table column =>
    obtain ⟨c', passes, same⟩ := bind_eq_ok.mp accepted
    cases same
    exact createIndex_ok passes
  | dropTable table =>
    obtain ⟨c', passes, same⟩ := bind_eq_ok.mp accepted
    cases same
    exact dropTable_ok passes
  | insert table columns =>
    obtain ⟨⟨number, c'⟩, passes, same⟩ := bind_eq_ok.mp accepted
    cases same
    exact insert_ok passes
  | update table columns tests =>
    obtain ⟨⟨changes, c'⟩, passes, same⟩ := bind_eq_ok.mp accepted
    cases same
    exact update_ok passes
  | delete table tests =>
    obtain ⟨⟨changes, c'⟩, passes, same⟩ := bind_eq_ok.mp accepted
    cases same
    exact delete_ok passes
  | select projection table tests keys =>
    obtain ⟨rows, -, same⟩ := bind_eq_ok.mp accepted
    cases same
    exact .asked rfl
  | tableList =>
    cases accepted
    exact .asked rfl
  | tableInfo table =>
    simp only [execute] at accepted
    split at accepted
    · cases accepted
    · cases accepted
      exact .asked rfl
  | setting setting =>
    cases accepted
    exact .asked rfl
  | verbatim text => cases accepted

/-- A database answers a call with a failure and stays as it is, or it does what the statement says. -/
theorem answer_cases {call : Call} (given : ∀ text, call.statement ≠ .verbatim text) :
    (∃ message, db.answer call = (.failed message, db)) ∨
      Executed db.content call.params call.statement (db.answer call).1 (db.answer call).2.content := by
  have same : resolveVerbatim call.statement = call.statement := by
    cases statement : call.statement with
    | verbatim text => exact absurd statement (given text)
    | _ => rfl
  unfold answer
  rw [same]
  cases accepted : db.execute call.params call.statement with
  | error fault => exact .inl ⟨_, rfl⟩
  | ok result => exact .inr (executed accepted)

end Database

end LiveTable
