import LiveTable.Proofs.Moves

/-!
# What a call of the store sends and publishes

A call of the store sends statements and publishes events. It does so in an order that depends on its
arguments alone, whatever the storage answers and whatever the observers do; it stops at the first
statement that fails, and returns that error. So the events of a run are determined by the commands
that were begun and by the answers of the storage.
-/

namespace LiveTable

/-- One act of a call of the store. -/
inductive Act
  | statement (call : Call)
  | event (event : ChangeEvent)

/-- What a call of the store does, in order, if its arguments can be read and pass every check. Only a
row that is inserted depends on the time. -/
inductive Command.Does (now : Int64) : Command → List Act → Prop
  | createTable {table : String} {columns : Columns} {spec : ColumnSpec} {call : Call}
    (read : columns.read = .ok spec) (valid : Request.createTable table spec = .ok call) :
    Does now (.createTable table columns) [.statement call, .event ⟨table, .createTable, none⟩]
  | addColumns {table : String} {columns : Columns} {spec : ColumnSpec} {calls : List Call}
    (read : columns.read = .ok spec) (named : checkName table = .ok ())
    (valid : spec.entries.mapM (fun e => Request.addColumn table e.1 e.2) = .ok calls) :
    Does now (.addColumns table columns) (calls.map .statement)
  | createIndex {table column : String} {call : Call}
    (valid : Request.createIndex table column = .ok call) :
    Does now (.createIndex table column) [.statement call]
  | dropTable {table : String} {call : Call} (valid : Request.dropTable table = .ok call) :
    Does now (.dropTable table) [.event ⟨table, .dropTable, none⟩, .statement call]
  | tables : Does now .tables [.statement Request.tableList]
  | schema {table : String} {call : Call} (valid : Request.tableInfo table = .ok call) :
    Does now (.schema table) [.statement call]
  | validateSchema {table : String} {columns : List String} {call : Call}
    (some : columns.isEmpty = false) (valid : Request.tableInfo table = .ok call) :
    Does now (.validateSchema table columns) [.statement call]
  | insert {table : String} {given : Given Row} {row : Row} {call : Call}
    (read : given.row = .ok row) (valid : Request.insert now table row = .ok call) :
    Does now (.insert table given) [.statement call, .event ⟨table, .insert, none⟩]
  | update {table : String} {selected : Given Filter} {filter : Filter} {given : Given Row} {row : Row}
    {call : Call} (selects : selected.filter = .ok filter) (read : given.row = .ok row)
    (valid : Request.update table filter row = .ok call) :
    Does now (.update table selected given) [.statement call, .event ⟨table, .update, some row⟩]
  | delete {table : String} {selected : Given Filter} {filter : Filter} {call : Call}
    (selects : selected.filter = .ok filter) (valid : Request.delete table filter = .ok call) :
    Does now (.delete table selected) [.statement call, .event ⟨table, .delete, none⟩]
  | select {table : String} {columns : List String} {filter : Given Filter} {order : Given SortOrder}
    {spec : QuerySpec} {call : Call} (read : Session.readSpec table columns filter order = .ok spec)
    (valid : Request.select spec = .ok call) :
    Does now (.select table columns filter order) [.statement call]

/-- What happens in a call that does some acts: one after the other, until a statement fails. Its error
is the outcome of the call. -/
inductive Follows (context : Context) : List Act → List Happening → Prop
  | finish (outcome : Outcome) : Follows context [] [.finished context outcome]
  | publish {acts : List Act} {happened : List Happening} (event : ChangeEvent)
    (observers : List Observer) (rest : Follows context acts happened) :
    Follows context (.event event :: acts) (.published event observers :: happened)
  | send {acts : List Act} {happened : List Happening} (call : Call) {answer : Answer}
    (succeeds : ∀ message, answer ≠ .failed message) (rest : Follows context acts happened) :
    Follows context (.statement call :: acts) (.sent call :: .returned call answer :: happened)
  | fail {acts : List Act} (call : Call) (message : String) :
    Follows context (.statement call :: acts)
      [.sent call, .returned call (.failed message),
        .finished context (.failed (.store (.storage message)))]

/-- The task runs code of others: of an observer, of a query's callback or of a hook. -/
def Task.foreign : Task → Bool
  | .script _ => true
  | .round .. => true
  | .fetch _ => true
  | _ => false

namespace Session

variable {σ : Type} {backend : Backend σ} {s s' : Session σ} {p p' : Progress σ}

/-- What happened since an earlier session, the earliest first. -/
def since (s s' : Session σ) : List Happening :=
  (s'.history.take (s'.history.length - s.history.length)).reverse

/-- What a call does by itself, from a session on in which it left tasks. Code of others runs in
between, and what happens there is not counted. -/
inductive Own (backend : Backend σ) : Session σ → Progress σ → List Happening → Prop
  | done (s s' : Session σ) : Own backend s (s', []) (since s s')
  | others {s s' s'' : Session σ} {task : Task} {rest : List Task} {happened : List Happening}
    (foreign : task.foreign = true) (runs : Later backend (s', [task]) (s'', []))
    (own : Own backend s'' (s'', rest) happened) :
    Own backend s (s', task :: rest) (since s s' ++ happened)
  | own {s s' : Session σ} {task : Task} {rest : List Task} {happened : List Happening}
    (mine : task.foreign = false)
    (own : Own backend s' ((s'.advance backend task).1, (s'.advance backend task).2 ++ rest) happened) :
    Own backend s (s', task :: rest) (since s s' ++ happened)

theorem since_of_history {new : List Happening} (grown : s'.history = new ++ s.history) :
    since s s' = new.reverse := by
  rw [since, grown, List.length_append, Nat.add_sub_cancel, List.take_left]

theorem since_of_same (same : s'.history = s.history) : since s s' = [] :=
  since_of_history (show s'.history = [] ++ s.history from same)

theorem since_of_record {h : Happening} (grown : s'.history = h :: s.history) : since s s' = [h] :=
  since_of_history (show s'.history = [h] ++ s.history from grown)

/-! ## The parts of a call -/

variable {context : Context} {rest : List Task} {happened : List Happening}

theorem Own.foreign {task : Task} (own : Own backend s (s', task :: rest) happened)
    (foreign : task.foreign = true) : ∃ s'' happened', happened = since s s' ++ happened' ∧
      Own backend s'' (s'', rest) happened' := by
  cases own with
  | others _ runs own => exact ⟨_, _, rfl, own⟩
  | own mine => rw [foreign] at mine; cases mine

theorem Own.mine {task : Task} (own : Own backend s (s', task :: rest) happened)
    (mine : task.foreign = false) : ∃ happened', happened = since s s' ++ happened' ∧
      Own backend s' ((s'.advance backend task).1, (s'.advance backend task).2 ++ rest) happened' := by
  cases own with
  | others foreign => rw [mine] at foreign; cases foreign
  | own _ own => exact ⟨_, rfl, own⟩

theorem Own.nothing (own : Own backend s (s', []) happened) : happened = since s s' := by
  cases own with
  | done => rfl

theorem Own.conclude {outcome : Outcome} (own : Own backend s (s', [.conclude context outcome]) happened) :
    happened = since s s' ++ [.finished context outcome] := by
  obtain ⟨last, split, own⟩ := own.mine rfl
  have ends : (s'.advance backend (.conclude context outcome)).1.history =
      .finished context outcome :: s'.history := by
    simp only [advance]
    split <;> rfl
  rw [split, own.nothing, since_of_record ends]

/-- A call that is sent comes back with an answer. -/
theorem Own.send {call : Call} {next : Continuation}
    (own : Own backend s (s', .send call next :: rest) happened) :
    ∃ s'' answer happened', happened = since s s' ++ .sent call :: happened' ∧
      Own backend s'' (s'', .resume call answer next :: rest) happened' := by
  obtain ⟨sends, split, own⟩ := own.mine rfl
  simp only [advance, List.cons_append, List.nil_append] at own
  obtain ⟨before, hooked, splitHook, own⟩ := own.foreign rfl
  obtain ⟨answers, splitAnswer, own⟩ := own.mine rfl
  simp only [advance, List.cons_append, List.nil_append] at own
  obtain ⟨after, resumes, splitResume, own⟩ := own.foreign rfl
  refine ⟨after, _, resumes, ?_, own⟩
  have sent : ((s'.record (.sent call)).takeHook call.kind .before).2.history =
      .sent call :: s'.history := (alike_takeHook _ _ _).history
  have answered : ((before.answer backend call).2.takeHook call.kind .after).2.history =
      before.history := (alike_takeHook _ _ _).history.trans (history_answer call before)
  rw [split, splitHook, splitAnswer, splitResume, since_of_record sent,
    since_of_same (rfl : before.history = before.history), since_of_same answered]
  rfl

/-- Every reading reports a failure of the storage as it is. -/
theorem outcome_failed (reading : Reading) (message : String) :
    reading.outcome (.failed message) = .error (.storage message) := by
  cases reading <;> rfl

/-- A call after which nothing is to be done for the others. -/
theorem Own.resume_conclude {call : Call} {answer : Answer} {reading : Reading}
    (own : Own backend s (s, [.resume call answer (.conclude reading context)]) happened) :
    happened = [.returned call answer, .finished context (.ofExcept id (reading.outcome answer))] := by
  obtain ⟨returns, split, own⟩ := own.mine rfl
  have last : Own backend s (s.record (.returned call answer),
    [.conclude context (.ofExcept id (reading.outcome answer))]) returns := own
  rw [split, last.conclude, since_of_same rfl, since_of_record rfl]
  rfl

theorem Own.resume_publish {call : Call} {answer : Answer} {event : ChangeEvent} {reading : Reading}
    (own : Own backend s (s, [.resume call answer (.publish event reading context)]) happened) :
    (∃ e, reading.outcome answer = .error e ∧
      happened = [.returned call answer, .finished context (.failed (.store e))]) ∨
    ∃ result observers, reading.outcome answer = .ok result ∧
      happened = [.returned call answer, .published event observers, .finished context result] := by
  obtain ⟨returns, split, own⟩ := own.mine rfl
  simp only [advance, Session.resume] at own
  cases outcome : reading.outcome answer with
  | error e =>
    rw [outcome] at own
    have last : Own backend s (s.record (.returned call answer),
      [.conclude context (.failed (.store e))]) returns := own
    refine .inl ⟨e, rfl, ?_⟩
    rw [split, last.conclude, since_of_same rfl, since_of_record rfl]
    rfl
  | ok result =>
    rw [outcome] at own
    obtain ⟨after, concludes, splitRound, own⟩ := own.foreign rfl
    have published : since s ((s.record (.returned call answer)).publish event).1 =
        [.returned call answer, .published event (s.bus.observers event.table)] :=
      since_of_history (show _ = [_, _] ++ s.history from rfl)
    refine .inr ⟨result, s.bus.observers event.table, rfl, ?_⟩
    rw [split, splitRound, Own.conclude own, since_of_same rfl, published, since_of_same rfl]
    rfl

/-! ## Whole calls -/

theorem Own.follows_conclude {call : Call} {reading : Reading}
    (own : Own backend s (s', [.send call (.conclude reading context)]) happened) :
    ∃ rest, happened = since s s' ++ rest ∧ Follows context [.statement call] rest := by
  obtain ⟨after, answer, resumes, split, own⟩ := own.send
  refine ⟨_, split, ?_⟩
  rw [own.resume_conclude]
  by_cases failed : ∃ message, answer = .failed message
  · obtain ⟨message, rfl⟩ := failed
    rw [outcome_failed]
    exact .fail call message
  · exact .send call (not_exists.mp failed) (.finish _)

theorem Own.follows_publish {call : Call} {event : ChangeEvent} {reading : Reading}
    (fits : (Continuation.publish event reading context).Fits call)
    (own : Own backend s (s', [.send call (.publish event reading context)]) happened) :
    ∃ rest, happened = since s s' ++ rest ∧ Follows context [.statement call, .event event] rest := by
  obtain ⟨after, answer, resumes, split, own⟩ := own.send
  refine ⟨_, split, ?_⟩
  rcases own.resume_publish with ⟨e, outcome, happened⟩ | ⟨result, observers, outcome, happened⟩
  · obtain ⟨message, rfl, rfl⟩ := (fits.2 answer e).mp outcome
    rw [happened]
    exact .fail call message
  · rw [happened]
    refine .send call ?_ (.publish event observers (.finish _))
    rintro message rfl
    rw [outcome_failed] at outcome
    cases outcome

theorem Own.follows_addColumns {table : String} {columns : List (String × ColumnDef)}
    {calls : List Call} (valid : columns.mapM (fun e => Request.addColumn table e.1 e.2) = .ok calls)
    (own : Own backend s (s'.addColumns table context columns) happened) :
    ∃ rest, happened = since s s' ++ rest ∧ Follows context (calls.map .statement) rest := by
  induction columns generalizing s s' calls happened with
  | nil =>
    cases valid
    exact ⟨_, own.conclude, .finish _⟩
  | cons column columns ih =>
    rw [List.mapM_cons, bind_eq_ok] at valid
    obtain ⟨call, accepted, valid⟩ := valid
    obtain ⟨calls, others, same⟩ := bind_eq_ok.mp valid
    cases same
    rw [addColumns, accepted, request] at own
    obtain ⟨after, answer, resumes, split, own⟩ := own.send
    refine ⟨_, split, ?_⟩
    obtain ⟨returns, splitReturn, own⟩ := own.mine rfl
    rw [splitReturn, since_of_same rfl, List.nil_append]
    by_cases failed : ∃ message, answer = .failed message
    · obtain ⟨message, rfl⟩ := failed
      have last : Own backend after (after.record (.returned call (.failed message)),
        [.conclude context (.failed (.store (.storage message)))]) returns := own
      rw [last.conclude, since_of_record rfl]
      exact .fail call message
    · have succeeds := not_exists.mp failed
      have passes : answer.toDone = .ok () := by
        cases answer <;> first | rfl | exact absurd rfl (succeeds _)
      simp only [advance, Session.resume, passes, List.append_nil] at own
      obtain ⟨rest, splitRest, follows⟩ := ih others own
      rw [splitRest, since_of_record rfl]
      exact .send call succeeds follows

/-- A call of the store does its acts, and nothing else. -/
theorem Own.follows {command : Command} {acts : List Act} (does : command.Does s.now acts)
    (own : Own backend s (s.ask backend context command) happened) :
    ∃ rest, happened = .asked command :: rest ∧ Follows context acts rest := by
  have asked : since s (s.record (.asked command)) = [.asked command] := since_of_record rfl
  rw [ask] at own
  cases does with
  | createTable read valid =>
    rw [perform, read, withArgument, valid, request] at own
    obtain ⟨-, -, rfl⟩ := Request.createTable_eq_ok.mp valid
    have follows := own.follows_publish (fits_publish rfl (.inl rfl) context)
    rwa [asked] at follows
  | addColumns read named valid =>
    rw [perform, read, withArgument, named] at own
    have follows := own.follows_addColumns valid
    rwa [asked] at follows
  | createIndex valid =>
    rw [perform, valid, request] at own
    have follows := own.follows_conclude
    rwa [asked] at follows
  | @dropTable table call valid =>
    simp only [perform, valid] at own
    obtain ⟨after, sends, split, own⟩ := own.foreign rfl
    obtain ⟨rest, splitRest, follows⟩ := own.follows_conclude
    have published : since s ((s.record (.asked (.dropTable table))).publish
        ⟨table, .dropTable, none⟩).1 = [.asked (.dropTable table),
          .published ⟨table, .dropTable, none⟩ (s.bus.observers table)] :=
      since_of_history (show _ = [_, _] ++ s.history from rfl)
    refine ⟨_, ?_, .publish _ (s.bus.observers table) follows⟩
    rw [split, published, splitRest, since_of_same rfl]
    rfl
  | tables =>
    have sends : Own backend s (s.record (.asked .tables),
      [.send Request.tableList (.conclude .tables context)]) happened := own
    have follows := sends.follows_conclude
    rwa [asked] at follows
  | schema valid =>
    rw [perform, valid, request] at own
    have follows := own.follows_conclude
    rwa [asked] at follows
  | validateSchema some valid =>
    simp only [perform, some, valid] at own
    have follows := own.follows_conclude
    rwa [asked] at follows
  | @insert table given row call read valid =>
    have valid : Request.insert (s.record (.asked (.insert table given))).now table row = .ok call :=
      valid
    rw [perform, read, withArgument, valid, request] at own
    obtain ⟨-, -, rfl⟩ := Request.insert_eq_ok.mp valid
    have follows := own.follows_publish (fits_publish rfl (.inr (.inl rfl)) context)
    rwa [asked] at follows
  | @update table selected filter given row call selects read valid =>
    rw [perform, selects, withArgument, read, withArgument, valid, request] at own
    obtain ⟨-, -, predicate, -, rfl⟩ := Request.update_eq_ok.mp valid
    have follows := own.follows_publish
      (fits_publish (event?_update table row _ _) (.inr (.inr rfl)) context)
    rwa [asked] at follows
  | delete selects valid =>
    rw [perform, selects, withArgument, valid, request] at own
    obtain ⟨-, predicate, -, rfl⟩ := Request.delete_eq_ok.mp valid
    have follows := own.follows_publish (fits_publish rfl (.inr (.inr rfl)) context)
    rwa [asked] at follows
  | select read valid =>
    rw [perform, read, withArgument, valid, request] at own
    have follows := own.follows_conclude
    rwa [asked] at follows

/-! ## Every call ends -/

variable (backend) in
/-- Running tasks adds no weight. -/
theorem weight_run (s : Session σ) (tasks : List Task) :
    (s.run backend tasks).weight ≤ s.weight + taskWeight tasks := by
  fun_induction run backend s tasks with
  | case1 s => exact Nat.le_add_right _ _
  | case2 s task rest p ih =>
    have step : p.1.weight + taskWeight p.2 ≤ s.weight + task.weight := by
      rcases advance_falls backend s task with less | ⟨le, -⟩
      · exact Nat.le_of_lt less
      · exact le
    rw [taskWeight_append] at ih
    rw [taskWeight_cons]
    omega

theorem foreign_size {task : Task} (foreign : task.foreign = true) : 0 < task.size := by
  cases task with
  | script commands => exact Nat.one_pos
  | round event observers => exact Nat.add_pos_left Nat.one_pos _
  | fetch key => exact Nat.succ_pos 6
  | _ => cases foreign

/-- Whatever a call left to do comes to its end. -/
theorem own_exists (s s' : Session σ) (tasks : List Task) :
    ∃ happened, Own backend s (s', tasks) happened := by
  match tasks with
  | [] => exact ⟨_, .done s s'⟩
  | task :: rest =>
    cases foreign : task.foreign with
    | true =>
      have runs : Later backend (s', [task]) (s'.run backend [task], []) := by
        simpa using later_run backend s' [task] []
      obtain ⟨happened, own⟩ := own_exists (s'.run backend [task]) (s'.run backend [task]) rest
      exact ⟨_, .others foreign runs own⟩
    | false =>
      obtain ⟨happened, own⟩ := own_exists s' (s'.advance backend task).1
        ((s'.advance backend task).2 ++ rest)
      exact ⟨_, .own foreign own⟩
termination_by (s'.weight + taskWeight tasks, taskSize tasks)
decreasing_by
  · have falls := advance_falls backend s' task
    simp only [Prod.lex_def, taskWeight_append, taskWeight_cons, taskSize_append, taskSize_cons]
    omega
  · have runs := weight_run backend s' [task]
    have positive := foreign_size foreign
    simp only [Prod.lex_def, taskWeight_cons, taskWeight_nil, taskSize_cons] at *
    omega

end Session

end LiveTable
