import LiveTable.Proofs.Operations
import LiveTable.Proofs.Words

/-!
# What operations of the store send

Every statement that an operation of the store sends is clean: names that are no plain identifiers do not
get into its text, and values never do.
-/

namespace LiveTable

/-- What a call leads to when it comes back sends statements with a property only. -/
def Continuation.Sends (property : Call → Prop) : Continuation → Prop
  | .addColumns table columns _ => ∀ e ∈ columns, ∀ call,
    Request.addColumn table e.1 e.2 = .ok call → property call
  | .deliver .. => False
  | _ => True

/-- A task sends statements with a property only, beside those that others send. -/
def Task.Sends (property : Call → Prop) : Task → Prop
  | .send call next => property call ∧ next.Sends property
  | .answer _ next => next.Sends property
  | .resume _ _ next => next.Sends property
  | .keepQuery .. => False
  | .keepWatch .. => False
  | _ => True

/-! ## Requests -/

namespace Request

variable {names : List String} {table column : String} {call : Call}

theorem supplied_of_ok {name : String} (checked : checkName name = .ok ()) (given : name ∈ names) :
    Supplied names name := .name given (checkName_eq_ok.mp checked)

/-- Beside the names of the caller, a map has the reserved name. -/
theorem supplied_reserved {α : Type} {map : Ordered α} {value : α}
    (checked : checkNames (map.insert addedColumn value).names = .ok ())
    (given : ∀ c ∈ map.names, c ∈ names) :
    ∀ c ∈ (map.insert addedColumn value).names, Supplied names c := by
  intro c member
  have identifier := checkNames_eq_ok.mp checked c member
  have member : c ∈ (Ordered.place addedColumn value map.entries).map Prod.fst := member
  rw [Ordered.names_place] at member
  split at member
  · exact .name (given c member) identifier
  · rcases List.mem_append.mp member with old | added
    · exact .name (given c old) identifier
    · rw [List.mem_singleton.mp added]
      exact .added

theorem supplied_fields {filter : Filter} {predicate : Predicate}
    (passed : Predicate.ofFilter filter = .ok predicate)
    (given : ∀ c ∈ filter.clauses, c.field ∈ names) :
    ∀ t ∈ predicate.tests, Supplied names t.field := by
  obtain ⟨named, rfl⟩ := ofFilter_eq_ok.mp passed
  intro t member
  obtain ⟨c, present, rfl⟩ := List.mem_map.mp member
  exact .name (given c present) (named c present)

theorem clean_createTable {spec : ColumnSpec} (accepted : createTable table spec = .ok call)
    (given : table ∈ names) (given' : ∀ c ∈ spec.names, c ∈ names) :
    Clean names call.statement.text := by
  obtain ⟨checked, checked', rfl⟩ := createTable_eq_ok.mp accepted
  refine Statement.clean (by simp) ?_
  rw [Statement.names_eq]
  exact List.forall_mem_cons.mpr ⟨.inr (supplied_of_ok checked given),
    fun c member => .inr (supplied_reserved checked' given' c member)⟩

theorem clean_addColumn {definition : ColumnDef} (accepted : addColumn table column definition = .ok call)
    (checked : checkName table = .ok ()) (given : table ∈ names) (given' : column ∈ names) :
    Clean names call.statement.text := by
  obtain ⟨checked', rfl⟩ := addColumn_eq_ok.mp accepted
  refine Statement.clean (by simp) ?_
  simp only [Statement.names_eq, List.forall_mem_cons]
  exact ⟨.inr (supplied_of_ok checked given), .inr (supplied_of_ok checked' given'), List.forall_mem_nil _⟩

theorem clean_createIndex (accepted : createIndex table column = .ok call)
    (given : table ∈ names) (given' : column ∈ names) : Clean names call.statement.text := by
  obtain ⟨checked, checked', rfl⟩ := createIndex_eq_ok.mp accepted
  refine Statement.clean (by simp) ?_
  simp only [Statement.names_eq, List.forall_mem_cons]
  exact ⟨.inr (.index given (checkName_eq_ok.mp checked) given' (checkName_eq_ok.mp checked')),
    .inr (supplied_of_ok checked given), .inr (supplied_of_ok checked' given'), List.forall_mem_nil _⟩

theorem clean_dropTable (accepted : dropTable table = .ok call) (given : table ∈ names) :
    Clean names call.statement.text := by
  obtain ⟨checked, rfl⟩ := dropTable_eq_ok.mp accepted
  refine Statement.clean (by simp) ?_
  simp only [Statement.names_eq, List.forall_mem_cons]
  exact ⟨.inr (supplied_of_ok checked given), List.forall_mem_nil _⟩

theorem clean_tableList (names : List String) : Clean names tableList.statement.text :=
  Statement.clean (by simp [tableList]) (by simp [tableList, Statement.names_eq])

theorem clean_tableInfo (accepted : tableInfo table = .ok call) (given : table ∈ names) :
    Clean names call.statement.text := by
  obtain ⟨checked, rfl⟩ := tableInfo_eq_ok.mp accepted
  refine Statement.clean (by simp) ?_
  simp only [Statement.names_eq, List.forall_mem_cons]
  exact ⟨.inr (supplied_of_ok checked given), List.forall_mem_nil _⟩

theorem clean_insert {now : Int64} {row : Row} (accepted : insert now table row = .ok call)
    (given : table ∈ names) (given' : ∀ c ∈ row.names, c ∈ names) :
    Clean names call.statement.text := by
  obtain ⟨checked, checked', rfl⟩ := insert_eq_ok.mp accepted
  refine Statement.clean (by simp) ?_
  rw [Statement.names_eq]
  exact List.forall_mem_cons.mpr ⟨.inr (supplied_of_ok checked given),
    fun c member => .inr (supplied_reserved checked' given' c member)⟩

theorem clean_update {filter : Filter} {row : Row} (accepted : update table filter row = .ok call)
    (given : table ∈ names) (given' : ∀ c ∈ row.names, c ∈ names)
    (given'' : ∀ c ∈ filter.clauses, c.field ∈ names) : Clean names call.statement.text := by
  obtain ⟨checked, checked', predicate, passed, rfl⟩ := update_eq_ok.mp accepted
  refine Statement.clean (by simp) ?_
  simp only [Statement.names_eq, List.forall_mem_cons, List.forall_mem_append, List.forall_mem_map]
  exact ⟨.inr (supplied_of_ok checked given),
    fun c member => .inr (.name (given' c member) (checkNames_eq_ok.mp checked' c member)),
    fun t member => .inr (supplied_fields passed given'' t member)⟩

theorem clean_delete {filter : Filter} (accepted : delete table filter = .ok call)
    (given : table ∈ names) (given' : ∀ c ∈ filter.clauses, c.field ∈ names) :
    Clean names call.statement.text := by
  obtain ⟨checked, predicate, passed, rfl⟩ := delete_eq_ok.mp accepted
  refine Statement.clean (by simp) ?_
  simp only [Statement.names_eq, List.forall_mem_cons, List.forall_mem_map]
  exact ⟨.inr (supplied_of_ok checked given),
    fun t member => .inr (supplied_fields passed given' t member)⟩

/-- A star in a projection is a sign and no word. -/
theorem clean_select {spec : QuerySpec} (accepted : select spec = .ok call)
    (given : ∀ name ∈ spec.names, name ∈ names) : Clean names call.statement.text := by
  obtain ⟨checked, checked', predicate, passed, checked'', rfl⟩ := select_eq_ok.mp accepted
  simp only [QuerySpec.names, Filter.fields, List.forall_mem_cons, List.forall_mem_append,
    List.forall_mem_map] at given
  obtain ⟨table, ⟨columns, fields⟩, keys⟩ := given
  refine Statement.clean (by simp) ?_
  simp only [Statement.names_eq, List.forall_mem_cons, List.forall_mem_append, List.forall_mem_map]
  refine ⟨?_, .inr (supplied_of_ok checked table),
    fun t member => .inr (supplied_fields passed fields t member),
    fun k member => .inr (.name (keys k member)
      (checkNames_eq_ok.mp checked'' k.column (List.mem_map_of_mem member)))⟩
  unfold projection
  split
  · simp
  · exact fun c member => ((checkProjection_eq_ok.mp checked').1 c member).imp_right
      fun identifier => .name (columns c member) identifier

end Request

namespace Session

variable {σ : Type} {backend : Backend σ} {s s' : Session σ} {p : Progress σ}
  {property : Call → Prop} {context : Context} {happened : List Happening}

/-- What happened between two sessions sent statements with a property only. -/
def SentOnly (property : Call → Prop) (s s' : Session σ) : Prop :=
  ∃ new, s'.history = new ++ s.history ∧ ∀ call, .sent call ∈ new → property call

/-! ## Steps of calls of the store -/

theorem SentOnly.refl (s : Session σ) : SentOnly property s s := ⟨[], rfl, by simp⟩

theorem SentOnly.trans {s'' : Session σ} (first : SentOnly property s s')
    (second : SentOnly property s' s'') : SentOnly property s s'' := by
  obtain ⟨new, grown, holds⟩ := first
  obtain ⟨new', grown', holds'⟩ := second
  refine ⟨new' ++ new, by rw [grown', grown, List.append_assoc], fun call member => ?_⟩
  exact (List.mem_append.mp member).elim (holds' call) (holds call)

theorem SentOnly.of_same (same : s'.history = s.history) : SentOnly property s s' :=
  ⟨[], same, by simp⟩

theorem SentOnly.record (s : Session σ) {h : Happening} (quiet : ∀ call, h ≠ .sent call) :
    SentOnly property s (s.record h) := by
  refine ⟨[h], rfl, fun call member => ?_⟩
  exact absurd (List.mem_singleton.mp member).symm (quiet call)

theorem SentOnly.since (only : SentOnly property s s') (call : Call) (sent : .sent call ∈ since s s') :
    property call := by
  obtain ⟨new, grown, holds⟩ := only
  rw [since_of_history grown, List.mem_reverse] at sent
  exact holds call sent

theorem request_sends (s : Session σ) (context : Context) {call : Except Error Call}
    {next : Continuation} (holds : ∀ c, call = .ok c → property c) (sends : next.Sends property) :
    (∀ task ∈ (s.request context call next).2, task.Sends property) ∧
      SentOnly property s (s.request context call next).1 := by
  cases call with
  | error e => exact ⟨by simp [request, refuse, Task.Sends], .refl s⟩
  | ok call => exact ⟨by simpa [request, Task.Sends] using ⟨holds call rfl, sends⟩, .refl s⟩

theorem addColumns_sends (s : Session σ) (context : Context) {table : String}
    {columns : List (String × ColumnDef)} (holds : ∀ e ∈ columns, ∀ call,
      Request.addColumn table e.1 e.2 = .ok call → property call) :
    (∀ task ∈ (s.addColumns table context columns).2, task.Sends property) ∧
      SentOnly property s (s.addColumns table context columns).1 := by
  cases columns with
  | nil => exact ⟨by simp [addColumns, Task.Sends], .refl s⟩
  | cons column columns =>
    rw [List.forall_mem_cons] at holds
    exact request_sends s context holds.1 holds.2

variable (backend) in
/-- A step of a call of the store sends a statement with the property, or none, and what it leaves to do
sends such statements only. -/
theorem advance_sends (s : Session σ) {task : Task} (mine : task.foreign = false)
    (sends : task.Sends property) :
    (∀ later ∈ (s.advance backend task).2, later.Sends property) ∧
      SentOnly property s (s.advance backend task).1 := by
  cases task with
  | script commands => cases mine
  | round event observers => cases mine
  | fetch key => cases mine
  | send call next =>
    refine ⟨by simpa [advance, Task.Sends] using sends.2, [.sent call], ?_, ?_⟩
    · exact (alike_takeHook _ _ _).history
    · intro other member
      cases List.mem_singleton.mp member
      exact sends.1
  | answer call next =>
    refine ⟨by simpa [advance, Task.Sends] using sends, .of_same ?_⟩
    exact (alike_takeHook _ _ _).history.trans (history_answer call s)
  | resume call answer next =>
    have returned : SentOnly property s (s.record (.returned call answer)) :=
      .record s (by simp)
    cases next with
    | conclude reading context => exact ⟨by simp [advance, resume, ended, Task.Sends], returned⟩
    | publish event reading context =>
      simp only [advance, resume]
      cases reading.outcome answer with
      | error e => exact ⟨by simp [refuse, Task.Sends], returned⟩
      | ok result =>
        refine ⟨by simp [publish, Task.Sends], returned.trans ?_⟩
        exact .record _ (by simp)
    | addColumns table columns context =>
      simp only [advance, resume]
      cases answer.toDone with
      | error e => exact ⟨by simp [refuse, Task.Sends], returned⟩
      | ok _ =>
        obtain ⟨tasks, only⟩ := addColumns_sends (s.record (.returned call answer)) context sends
        exact ⟨tasks, returned.trans only⟩
    | deliver key ticket => cases sends
  | keepQuery label key context => cases sends
  | keepWatch label key context => cases sends
  | conclude context outcome =>
    have ends : SentOnly property s (s.record (.finished context outcome)) := .record s (by simp)
    simp only [advance]
    split <;> exact ⟨by simp, ends⟩

/-- A call of the store whose tasks send statements with a property only sends no others. -/
theorem Own.sends (own : Own backend s p happened)
    (before : ∀ call, .sent call ∈ since s p.1 → property call)
    (tasks : ∀ task ∈ p.2, task.Sends property) : ∀ call, .sent call ∈ happened → property call := by
  -- Tasks of others send what they like; what the operation left to do keeps the property meanwhile.
  induction own with
  | done s s' => exact before
  | @others s s' s'' task rest happened foreign runs own ih =>
    rw [List.forall_mem_cons] at tasks
    have later := ih (by simp [since_of_same rfl]) tasks.2
    exact fun call sent => (List.mem_append.mp sent).elim (before call) (later call)
  | @own s s' task rest happened mine own ih =>
    rw [List.forall_mem_cons] at tasks
    obtain ⟨sends, only⟩ := advance_sends backend s' mine tasks.1
    have later := ih only.since (List.forall_mem_append.mpr ⟨sends, tasks.2⟩)
    exact fun call sent => (List.mem_append.mp sent).elim (before call) (later call)

/-! ## Calls of the store -/

/-- The calls of requests are clean. -/
theorem clean_demand {now : Int64} {demand : Demand} {call : Call} (accepted : demand.call now = .ok call) :
    Clean demand.names call.statement.text := by
  cases demand with
  | insert table row =>
    exact Request.clean_insert accepted (by simp [Demand.names]) (by simp +contextual [Demand.names])
  | update table filter row =>
    refine Request.clean_update accepted (by simp [Demand.names]) (by simp +contextual [Demand.names]) ?_
    intro c member
    have field : c.field ∈ filter.fields := List.mem_map_of_mem member
    simp [Demand.names, field]
  | delete table filter =>
    refine Request.clean_delete accepted (by simp [Demand.names]) fun c member => ?_
    have field : c.field ∈ filter.fields := List.mem_map_of_mem member
    simp [Demand.names, field]
  | select spec => exact Request.clean_select accepted fun name member => member

/-- An operation of the store sends clean statements only. -/
theorem operate_sends (s : Session σ) (context : Context) (operation : Operation) :
    (∀ task ∈ (s.operate context operation).2,
      task.Sends fun call => Clean operation.names call.statement.text) ∧
    SentOnly (fun call => Clean operation.names call.statement.text) s
      (s.operate context operation).1 := by
  cases operation with
  | createTable table spec =>
    refine request_sends s context (fun call accepted => ?_) trivial
    exact Request.clean_createTable accepted (by simp [Operation.names])
      (by simp +contextual [Operation.names])
  | addColumns table spec =>
    simp only [operate]
    cases checked : checkName table with
    | error e => exact ⟨by simp [refuse, Task.Sends], .refl s⟩
    | ok _ =>
      refine addColumns_sends s context fun e member call accepted => ?_
      have name : e.1 ∈ spec.names := List.mem_map_of_mem member
      exact Request.clean_addColumn accepted checked (by simp [Operation.names])
        (by simp [Operation.names, name])
  | createIndex table column =>
    refine request_sends s context (fun call accepted => ?_) trivial
    exact Request.clean_createIndex accepted (by simp [Operation.names]) (by simp [Operation.names])
  | dropTable table =>
    simp only [operate]
    cases accepted : Request.dropTable table with
    | error e => exact ⟨by simp [refuse, Task.Sends], .refl s⟩
    | ok call =>
      have clean := Request.clean_dropTable accepted (List.mem_singleton_self table)
      exact ⟨by simpa [publish, Task.Sends, Continuation.Sends, Operation.names] using clean,
        .record s (by simp)⟩
  | tables =>
    refine ⟨?_, .refl s⟩
    simpa [operate, Task.Sends, Continuation.Sends] using Request.clean_tableList _
  | schema table =>
    exact request_sends s context
      (fun call accepted => Request.clean_tableInfo accepted (by simp [Operation.names])) trivial
  | validateSchema table columns =>
    simp only [operate]
    split
    · exact ⟨by simp [refuse, Task.Sends], .refl s⟩
    · exact request_sends s context
        (fun call accepted => Request.clean_tableInfo accepted (by simp [Operation.names])) trivial
  | data demand =>
    refine request_sends s context (fun call accepted => clean_demand accepted) ?_
    cases demand <;> trivial

/-- The statements of an operation of the store are clean. -/
theorem Own.clean {operation : Operation} (own : Own backend s (s.operate context operation) happened) :
    ∀ call, .sent call ∈ happened → Clean operation.names call.statement.text := by
  obtain ⟨tasks, only⟩ := operate_sends s context operation
  exact own.sends only.since tasks

/-- Delivering a result sends nothing by itself. -/
theorem deliver_quiet (s : Session σ) (key ticket : Nat) (result : Except Error (List Row)) (call : Call)
    (next : Continuation) : .send call next ∉ (s.deliver key ticket result).2 := by
  cases delivered s key ticket result with
  | lost none done => simp [done]
  | accepted query active new calls done => simp [done]
  | discarded query late done => simp [done]

/-- The statements that a query sends when it fetches are clean. -/
theorem fetch_clean {key : Nat} {call : Call} {next : Continuation}
    (sends : .send call next ∈ (s.fetch key).2) :
    ∃ q, s.queries[key]? = some q ∧ Clean q.spec.names call.statement.text := by
  cases fetched s key with
  | idle inactive done => simp [done] at sends
  | refused query active invalid done =>
    rw [done] at sends
    exact absurd sends (deliver_quiet _ key _ _ call next)
  | started query active valid done =>
    rw [done, List.mem_singleton] at sends
    cases sends
    exact ⟨_, query, Request.clean_select valid fun name member => member⟩

end Session

end LiveTable
