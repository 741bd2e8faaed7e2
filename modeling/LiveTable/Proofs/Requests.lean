import LiveTable.Request

/-!
# Accepted requests

A request becomes a call exactly if every check passes, and then the call is the one that is written
down here.
-/

namespace LiveTable

theorem bind_eq_ok {ε α β : Type} {x : Except ε α} {f : α → Except ε β} {b : β} :
    (x >>= f) = .ok b ↔ ∃ a, x = .ok a ∧ f a = .ok b := by
  cases x with
  | error e => simp [bind, Except.bind]
  | ok a => simp [bind, Except.bind]

theorem bind_ok_eq_error {ε α β : Type} {x : Except ε α} {f : α → β} {e : ε} :
    (do .ok (f (← x))) = (.error e : Except ε β) ↔ x = .error e := by
  cases x <;> simp [bind, Except.bind]

theorem check_bind_eq_ok {ε β : Type} {x : Except ε Unit} {f : Unit → Except ε β} {b : β} :
    (x >>= f) = .ok b ↔ x = .ok () ∧ f () = .ok b := by
  rw [bind_eq_ok]
  constructor
  · rintro ⟨⟨⟩, passed, rest⟩
    exact ⟨passed, rest⟩
  · rintro ⟨passed, rest⟩
    exact ⟨(), passed, rest⟩

/-! ## Checks -/

theorem checkName_eq_ok {name : String} : checkName name = .ok () ↔ isIdentifier name = true := by
  unfold checkName
  split <;> simp [*]

theorem checkNames_eq_ok {names : List String} :
    checkNames names = .ok () ↔ ∀ name ∈ names, isIdentifier name = true := by
  induction names with
  | nil => simp [checkNames]
  | cons name rest ih => rw [checkNames, check_bind_eq_ok, checkName_eq_ok, ih, List.forall_mem_cons]

theorem ofFilter_eq_ok {f : Filter} {predicate : Predicate} :
    Predicate.ofFilter f = .ok predicate ↔ (∀ c ∈ f.clauses, isIdentifier c.field = true) ∧
      predicate = ⟨f.clauses.map fun c => ⟨c.field, c.condition.testOp⟩,
        f.clauses.flatMap fun c => c.condition.operands⟩ := by
  simp [Predicate.ofFilter, check_bind_eq_ok, checkNames_eq_ok, @eq_comm _ predicate]

/-- The names of a projection that passes are identifiers or the star, and none stands twice. -/
theorem checkProjection_eq_ok {before columns : List String} :
    Request.checkProjection before columns = .ok () ↔
      (∀ c ∈ columns, c = "*" ∨ isIdentifier c = true) ∧ columns.Nodup ∧ ∀ c ∈ columns, c ∉ before := by
  induction columns generalizing before with
  | nil => simp [Request.checkProjection]
  | cons column rest ih =>
    have repeated (next : Unit → Except Error Unit) :
        (throw (.duplicateColumn column) >>= next) ≠ .ok () := nofun
    have entry : Request.checkProjection before (column :: rest) = .ok () ↔
        (column = "*" ∨ isIdentifier column = true) ∧ column ∉ before ∧
          Request.checkProjection (column :: before) rest = .ok () := by
      simp only [Request.checkProjection]
      by_cases star : column = "*"
      · subst star
        by_cases old : "*" ∈ before <;> simp [old, repeated]
      · by_cases old : column ∈ before <;>
          simp [star, old, check_bind_eq_ok, checkName_eq_ok, repeated]
    rw [entry, ih, List.forall_mem_cons, List.nodup_cons, List.forall_mem_cons]
    simp only [List.mem_cons, not_or]
    constructor
    · rintro ⟨named, new, others, nodup, apart⟩
      exact ⟨⟨named, others⟩, ⟨fun again => (apart column again).1 rfl, nodup⟩, new,
        fun c member => (apart c member).2⟩
    · rintro ⟨⟨named, others⟩, ⟨once, nodup⟩, new, apart⟩
      refine ⟨named, new, others, nodup, fun c member => ⟨?_, apart c member⟩⟩
      rintro rfl
      exact once member

/-! ## Requests -/

namespace Request

variable {table column : String} {call : Call}

theorem createTable_eq_ok {spec : ColumnSpec} :
    createTable table spec = .ok call ↔
      checkName table = .ok () ∧ checkNames (declaredColumns spec).names = .ok () ∧
        call = ⟨.execute, .createTable table (declaredColumns spec).entries, []⟩ := by
  simp [createTable, check_bind_eq_ok, @eq_comm _ call]

theorem addColumn_eq_ok {definition : ColumnDef} :
    addColumn table column definition = .ok call ↔
      checkName column = .ok () ∧ call = ⟨.execute, .addColumn table column definition, []⟩ := by
  simp [addColumn, check_bind_eq_ok, @eq_comm _ call]

theorem createIndex_eq_ok :
    createIndex table column = .ok call ↔
      checkName table = .ok () ∧ checkName column = .ok () ∧
        call = ⟨.execute, .createIndex table column, []⟩ := by
  simp [createIndex, check_bind_eq_ok, @eq_comm _ call]

theorem dropTable_eq_ok :
    dropTable table = .ok call ↔
      checkName table = .ok () ∧ call = ⟨.execute, .dropTable table, []⟩ := by
  simp [dropTable, check_bind_eq_ok, @eq_comm _ call]

theorem tableInfo_eq_ok :
    tableInfo table = .ok call ↔
      checkName table = .ok () ∧ call = ⟨.query, .tableInfo table, []⟩ := by
  simp [tableInfo, check_bind_eq_ok, @eq_comm _ call]

theorem insert_eq_ok {now : Int64} {row : Row} :
    insert now table row = .ok call ↔
      checkName table = .ok () ∧ checkNames (stamped now row).names = .ok () ∧
        call = ⟨.run, .insert table (stamped now row).names, (stamped now row).values⟩ := by
  simp [insert, check_bind_eq_ok, @eq_comm _ call]

theorem update_eq_ok {filter : Filter} {row : Row} :
    update table filter row = .ok call ↔
      checkName table = .ok () ∧ checkNames row.names = .ok () ∧
        ∃ predicate, Predicate.ofFilter filter = .ok predicate ∧
          call = ⟨.run, .update table row.names predicate.tests, row.values ++ predicate.params⟩ := by
  simp [update, check_bind_eq_ok, @bind_eq_ok _ Predicate, @eq_comm _ call]

theorem delete_eq_ok {filter : Filter} :
    delete table filter = .ok call ↔
      checkName table = .ok () ∧
        ∃ predicate, Predicate.ofFilter filter = .ok predicate ∧
          call = ⟨.run, .delete table predicate.tests, predicate.params⟩ := by
  simp [delete, check_bind_eq_ok, @bind_eq_ok _ Predicate, @eq_comm _ call]

theorem select_eq_ok {spec : QuerySpec} :
    select spec = .ok call ↔
      checkName spec.table = .ok () ∧ checkProjection [] spec.columns = .ok () ∧
        ∃ predicate, Predicate.ofFilter spec.filter = .ok predicate ∧
          checkNames (spec.order.keys.map (·.column)) = .ok () ∧
            call = ⟨.query, .select (projection spec.columns) spec.table predicate.tests
              spec.order.keys, predicate.params⟩ := by
  simp [select, check_bind_eq_ok, @bind_eq_ok _ Predicate, @eq_comm _ call]

end Request

end LiveTable
