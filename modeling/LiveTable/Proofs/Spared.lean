import LiveTable.Proofs.IndexNames

/-!
# Tables that a statement spares

A database compares the names of tables without regard to case, and a statement changes the table that its
name stands for and no other; only what belongs to the database itself changes with other tables. So what a
selection on a table of its users gives, if it does not ask for the time, is changed by the statements alone
whose name stands for that table, under whichever spelling.
-/

namespace LiveTable

/-- The table that a statement defines, drops or changes. -/
def Statement.target? : Statement → Option String
  | .createTable table _ => some table
  | .addColumn table _ _ => some table
  | .createIndex table _ => some table
  | .dropTable table => some table
  | .insert table _ => some table
  | .update table _ _ => some table
  | .delete table _ => some table
  | _ => none

/-- A statement that names its table is none that a caller writes. -/
theorem Statement.own_of_target? {s : Statement} {table : String} (target : s.target? = some table)
    (text : String) : s ≠ .verbatim text := by
  rintro rfl
  cases target

/-- Nor is one that is known to ask. -/
theorem Statement.own_of_reads {s : Statement} (asks : Database.reads s = true) (text : String) :
    s ≠ .verbatim text := by
  rintro rfl
  cases asks

/-- A call that is told of under exactly this name if it changes the table of this name: it asks, or what it
changes is announced under the name, or it is about another table. -/
def Call.Spells (name : String) (call : Call) : Prop :=
  (∀ text, call.statement ≠ .verbatim text) ∧
    (Database.reads call.statement = true ∨ call.changed? = some name ∨
      ∃ table, call.statement.target? = some table ∧ Text.sameName table name = false)

/-- A selection stands apart in a storage: what it gives depends on a part of the storage that is left alone
by calls that fail, that ask or that name another table. Selections on the tables of the users stand apart,
unless they ask for the time; those on a table that the database keeps for itself do not, for it changes with
others. -/
structure Backend.Separates {σ ν : Type} (backend : Backend σ) (spec : QuerySpec) (view : σ → ν) : Prop where
  selects : ∀ call, Request.select spec = .ok call → ∀ a b, view a = view b →
    (backend.answer call a).1 = (backend.answer call b).1
  fails : ∀ call, (∀ text, call.statement ≠ .verbatim text) → ∀ storage message,
    (backend.answer call storage).1 = .failed message →
      view (backend.answer call storage).2 = view storage
  asks : ∀ call, Database.reads call.statement = true → ∀ storage,
    view (backend.answer call storage).2 = view storage
  elsewhere : ∀ call table, call.statement.target? = some table → Text.sameName table spec.table = false →
    ∀ storage, view (backend.answer call storage).2 = view storage

/-- A selection that stands apart follows the calls that are told of under exactly the name of its table if
they change it. -/
theorem Backend.Separates.follows {σ ν : Type} {backend : Backend σ} {spec : QuerySpec} {view : σ → ν}
    (separates : backend.Separates spec view) : backend.Follows spec view (Call.Spells spec.table) where
  selects := separates.selects
  fails call spells := separates.fails call spells.1
  spares call spells other storage := by
    rcases spells.2 with asks | announced | ⟨table, target, elsewhere⟩
    · exact separates.asks call asks storage
    · exact absurd announced other
    · exact separates.elsewhere call table target elsewhere storage

namespace Database

variable {c c' : Content} {s : Statement} {params : List Value} {answer : Answer} {name : String} {t : Table}

/-! ## Where a table is found -/

theorem schemaName?_proper (proper : isSystemName name = false) : schemaName? name = none := by
  have own {text : String} (spelled : Text.lower name = text) (system : text.startsWith "sqlite_" = true) :
      False := by
    rw [isSystemName, spelled, system] at proper
    cases proper
  unfold schemaName?
  split
  · rename_i spelled
    exact (own spelled (by decide +kernel)).elim
  · rename_i spelled
    exact (own spelled (by decide +kernel)).elim
  · rename_i spelled
    exact (own spelled (by decide +kernel)).elim
  · rename_i spelled
    exact (own spelled (by decide +kernel)).elim
  · rfl

theorem find?_eq (proper : isSystemName name = false) (c : Content) :
    c.find? name = c.tables.find? fun t => Text.sameName t.name name := by
  rw [Content.find?, schemaName?_proper proper]

theorem other_of_system (proper : isSystemName name = false) {system : String}
    (own : isSystemName system = true) : Text.sameName system name = false := by
  refine Bool.eq_false_iff.mpr fun same => ?_
  rw [isSystemName_same same, proper] at own
  cases own

/-- The table of one name has no other name. -/
theorem other_of_find? (proper : isSystemName name = false) {table : String}
    (found : c.find? table = some t) (other : Text.sameName table name = false) :
    Text.sameName t.name name = false := by
  rcases find?_some found with ⟨-, same⟩ | ⟨-, system⟩
  · refine Bool.eq_false_iff.mpr fun own => ?_
    rw [sameName_trans (sameName_symm same) own] at other
    cases other
  · exact other_of_system proper system

/-! ## Contents that keep a table -/

/-- Tables that are changed under their names leave alone a table that is not among them. -/
theorem find?_map_spared {put : Table → Table} (named : ∀ t, (put t).name = t.name)
    (spared : ∀ t, Text.sameName t.name name = true → put t = t) (tables : List Table) :
    (tables.map put).find? (fun t => Text.sameName t.name name) =
      tables.find? fun t => Text.sameName t.name name := by
  have asked : ((fun t : Table => Text.sameName t.name name) ∘ put) =
      fun t => Text.sameName t.name name := funext fun t => by rw [Function.comp, named]
  rw [List.find?_map, asked]
  cases found : tables.find? fun t => Text.sameName t.name name with
  | none => rfl
  | some t =>
    have own := List.find?_some found
    exact congrArg some (spared t own)

/-- Changing the table of one name keeps the table of another. -/
theorem find?_setTable_other (proper : isSystemName name = false) {table : String}
    (found : c.find? table = some t) (other : Text.sameName table name = false)
    (columns : List TableColumn) (records : List Record) :
    (c.setTable { t with columns, records }).find? name = c.find? name := by
  have elsewhere := other_of_find? proper found other
  rw [find?_eq proper, find?_eq proper]
  refine find?_map_spared (fun old => ?_) (fun old own => if_neg fun same => ?_) c.tables
  · by_cases same : old.name = t.name
    · exact (congrArg Table.name (if_pos same)).trans same.symm
    · exact congrArg Table.name (if_neg same)
  · rw [same, elsewhere] at own
    cases own

theorem find?_setSequence (proper : isSystemName name = false) (c : Content) (table : String) (n : Int64) :
    (c.setSequence table n).find? name = c.find? name := by
  unfold Content.setSequence
  split
  · rfl
  · rename_i t found
    have other := other_of_system proper (by decide +kernel : isSystemName sequenceName = true)
    exact find?_setTable_other proper found other _ _

/-- New tables of other names stand behind the tables that there are. -/
theorem find?_append_other (proper : isSystemName name = false) {more : List Table} {indexes : List Index}
    (others : ∀ t ∈ more, Text.sameName t.name name = false) :
    Content.find? ⟨c.tables ++ more, indexes⟩ name = c.find? name := by
  have none : more.find? (fun t => Text.sameName t.name name) = none :=
    List.find?_eq_none.mpr fun t member => by simp [others t member]
  rw [find?_eq proper, find?_eq proper, List.find?_append, none, Option.or_none]

theorem find?_dropped (proper : isSystemName name = false) (other : Text.sameName t.name name = false)
    {indexes : List Index} :
    Content.find? ⟨(c.tables.filter fun other => other.name ≠ t.name).map t.forgetting, indexes⟩ name =
      c.find? name := by
  rw [find?_eq proper, find?_eq proper]
  have forgets : ∀ old : Table, Text.sameName old.name name = true → t.forgetting old = old := by
    intro old own
    refine if_neg fun forgets => ?_
    obtain ⟨-, sequences⟩ := Bool.and_eq_true_iff.mp forgets
    rw [of_decide_eq_true sequences, other_of_system proper (by decide +kernel)] at own
    cases own
  rw [find?_map_spared (fun old => (forgetting_cases t old).1) forgets, List.find?_filter]
  have kept : (fun old : Table => decide (old.name ≠ t.name) && Text.sameName old.name name) =
      fun old => Text.sameName old.name name := by
    funext old
    cases own : Text.sameName old.name name with
    | false => exact Bool.and_false _
    | true =>
      have elsewhere : old.name ≠ t.name := by
        intro same
        rw [same, other] at own
        cases own
      rw [decide_eq_true elsewhere, Bool.true_and]
  simp only [decide_eq_true_eq, Bool.decide_and, Bool.decide_eq_true, kept]

/-! ## Statements that keep a table -/

/-- A statement that asks changes nothing. -/
theorem Executed.same (executed : Executed c params s answer c') (asks : reads s = true) : c' = c := by
  cases executed with
  | asked => rfl
  | _ => first | rfl | cases asks

/-- A statement that is accepted is not answered with a failure, unless it changes nothing. -/
theorem Executed.failed {message : String} (executed : Executed c params s (.failed message) c') : c' = c := by
  cases executed with
  | asked => rfl

/-- A statement about another table keeps a table. -/
theorem Executed.spares (executed : Executed c params s answer c') (proper : isSystemName name = false)
    (other : ∀ table, s.target? = some table → Text.sameName table name = false) :
    c'.find? name = c.find? name := by
  cases executed with
  | tableKept | indexKept | tableMissing | asked => rfl
  | tableCreated _ _ named _ _ sequences =>
    rw [List.append_assoc]
    refine find?_append_other proper fun t member => ?_
    rcases List.mem_cons.mp member with rfl | member
    · rw [named]
      exact other _ rfl
    · rw [sequences t member]
      exact other_of_system proper (by decide +kernel)
  | columnAdded found => exact find?_setTable_other proper found (other _ rfl) _ _
  | indexCreated => rw [find?_eq proper, find?_eq proper]
  | tableDropped found => exact find?_dropped proper (other_of_find? proper found (other _ rfl))
  | inserted found _ puts notes =>
    have put := find?_setTable_other proper (find?_of_findModifiable found).1 (other _ rfl)
    rcases notes with rfl | ⟨n, rfl⟩
    · rw [puts]
      exact put _ _
    · rw [find?_setSequence proper, puts]
      exact put _ _
  | updated found =>
    exact find?_setTable_other proper (find?_of_findModifiable found).1 (other _ rfl) _ _
  | deleted found =>
    exact find?_setTable_other proper (find?_of_findModifiable found).1 (other _ rfl) _ _

/-- What a selection gives depends on its table. -/
theorem answer_select {db db' : Database} {spec : QuerySpec} {call : Call}
    (valid : Request.select spec = .ok call)
    (same : db.content.find? spec.table = db'.content.find? spec.table) :
    (db.answer call).1 = (db'.answer call).1 := by
  obtain ⟨-, -, predicate, -, -, rfl⟩ := Request.select_eq_ok.mp valid
  have selects (s : Statement) (projection : List String) (tests : List Test) (keys : List SortKey)
      (params : List Value) : db.content.select s projection spec.table tests keys params =
        db'.content.select s projection spec.table tests keys params := by
    rw [Content.select, Content.select, same]
  simp only [answer, resolveVerbatim, execute, selects]
  cases db'.content.select _ _ spec.table _ _ _ <;> rfl

end Database

/-- In a database in memory every selection on a table of its users stands apart. -/
theorem separates_memory {spec : QuerySpec} (proper : Database.isSystemName spec.table = false) :
    Database.memoryBackend.Separates spec fun db => db.content.find? spec.table where
  selects call valid a b same := Database.answer_select valid same
  fails call given db message failed := by
    rcases Database.answer_executes call given db with ⟨-, same⟩ | executed
    · exact congrArg (·.find? spec.table) same
    · have executed : Database.Executed _ _ _ (Database.memoryBackend.answer call db).1 _ := executed
      rw [failed] at executed
      exact congrArg (·.find? spec.table) executed.failed
  asks call asks db := by
    rcases Database.answer_executes call (Statement.own_of_reads asks) db with ⟨-, same⟩ | executed
    · exact congrArg (·.find? spec.table) same
    · exact congrArg (·.find? spec.table) (executed.same asks)
  elsewhere call table target other db := by
    rcases Database.answer_executes call (Statement.own_of_target? target) db with ⟨-, same⟩ | executed
    · exact congrArg (·.find? spec.table) same
    · refine executed.spares proper fun table' target' => ?_
      cases target.symm.trans target'
      exact other

end LiveTable
