import LiveTable.Session.Weight

/-!
# Running a session

A task is advanced by one step, which changes the session and leaves tasks in its place. A run does
the first task until none is left. The weight of the session and its tasks, and then the size of the
tasks, fall with every step, so every run ends.
-/

namespace LiveTable.Session

variable {σ : Type} (backend : Backend σ)

/-- Call one observer of a published event. A disposed watch is passed over; a disposed query does
not fetch. -/
def notify (event : ChangeEvent) (s : Session σ) : Observer → Progress σ
  | .listener key =>
    let label := (s.listeners[key]?.map (·.label)).getD ""
    let (script, s) := (s.record (.observed key label event)).listenerScript key
    (s, [.script script])
  | .query key => (s, [.fetch key])
  | .watch key =>
    match s.watches[key]? with
    | none => (s, [])
    | some w =>
      if w.active then
        let (script, s) := (s.record (.notified key w.label)).watchScript key
        (s, [.script script])
      else (s, [])

/-- Deliver the result of a fetch. A disposed query drops it, and so does one that delivered a later
fetch already. -/
def deliver (s : Session σ) (key ticket : Nat) (result : Except Error (List Row)) : Progress σ :=
  match s.queries[key]? with
  | none => (s, [])
  | some q =>
    let s := s.record (.arrived key ticket result)
    if q.active && q.delivered ≤ ticket then
      let (script, s) := (s.takeResult key ticket q.label result).queryScript key
      (s, [.script script])
    else (s.record (.discarded key ticket), [])

/-- Start a fetch of a query: it takes a ticket and sends the query's selection, whose result is
delivered when the storage returns. -/
def fetch (s : Session σ) (key : Nat) : Progress σ :=
  match s.queries[key]? with
  | none => (s, [])
  | some q =>
    if q.active then
      let ticket := q.started + 1
      let s := s.startFetch key ticket
      match Request.select q.spec with
      | .error e => s.deliver key ticket (.error e)
      | .ok call => (s, [.send call (.deliver key ticket)])
    else (s, [])

/-- Go on after a call with its answer. -/
def resume (s : Session σ) (answer : Answer) : Continuation → Progress σ
  | .conclude reading context => s.ended context (.ofExcept id (reading.outcome answer))
  | .publish event reading context =>
    match reading.outcome answer with
    | .error e => s.refuse context (.store e)
    | .ok result =>
      let (s, round) := s.publish event
      (s, [round, .conclude context result])
  | .addColumns table columns context =>
    match answer.toDone with
    | .error e => s.refuse context (.store e)
    | .ok _ => s.addColumns table context columns
  | .deliver key ticket => s.deliver key ticket answer.toRows

/-- One step of a task. -/
def advance (s : Session σ) : Task → Progress σ
  | .script [] => (s, [])
  | .script (command :: rest) =>
    let (s, tasks) := s.ask backend (.nested command.word) command
    (s, tasks ++ [.script rest])
  | .round _ [] => (s, [])
  | .round event (observer :: rest) =>
    let (s, tasks) := s.notify event observer
    (s, tasks ++ [.round event rest])
  | .fetch key => s.fetch key
  | .send call next =>
    let (hook, s) := (s.record (.sent call)).takeHook call.kind .before
    (s, [.script hook, .answer call next])
  | .answer call next =>
    let (answer, s) := s.answer backend call
    let (hook, s) := s.takeHook call.kind .after
    (s, [.script hook, .resume call answer next])
  | .resume call answer next => (s.record (.returned call answer)).resume answer next
  | .keepQuery label key context => (s.keepQuery label key, [.conclude context .done])
  | .keepWatch label key context => (s.keepWatch label key, [.conclude context .done])
  | .conclude context outcome =>
    let s := s.record (.finished context outcome)
    (if context = .top then { s with outcome } else s, [])

/-! ## Steps make progress -/

theorem light_notify (event : ChangeEvent) (s : Session σ) (o : Observer) :
    Light s.weight (s.notify event o) ∧ taskSize (s.notify event o).2 ≤ 7 := by
  cases o with
  | listener key =>
    have := weight_listenerScript
      (s.record (.observed key ((s.listeners[key]?.map (·.label)).getD "") event)) key
    simp [notify, Light, Task.weight, Task.size] at *
    omega
  | query key => simp [notify, Light, Task.weight, Task.size]
  | watch key =>
    simp only [notify]
    cases s.watches[key]? with
    | none => simp [Light]
    | some w =>
      cases hw : w.active
      · simp [hw, Light]
      · have := weight_watchScript (s.record (.notified key w.label)) key
        simp [hw, Light, Task.weight, Task.size] at *
        omega

theorem light_deliver (s : Session σ) (key ticket : Nat) (result : Except Error (List Row)) :
    Light s.weight (s.deliver key ticket result) ∧ taskSize (s.deliver key ticket result).2 < 2 := by
  unfold deliver
  cases s.queries[key]? with
  | none => simp [Light]
  | some q =>
    by_cases accepted : (q.active && decide (q.delivered ≤ ticket)) = true
    · have script := weight_queryScript
        ((s.record (.arrived key ticket result)).takeResult key ticket q.label result) key
      simp [accepted, Light, Task.weight, Task.size] at *
      omega
    · simp [accepted, Light]

theorem light_fetch (s : Session σ) (key : Nat) :
    Light s.weight (s.fetch key) ∧ taskSize (s.fetch key).2 < 7 := by
  unfold fetch
  cases s.queries[key]? with
  | none => simp [Light]
  | some q =>
    cases hq : q.active
    · simp [hq, Light]
    · simp only [hq, if_true]
      cases Request.select q.spec with
      | error e =>
        have delivered := light_deliver (s.startFetch key (q.started + 1)) key (q.started + 1)
          (.error e)
        rw [weight_startFetch] at delivered
        exact ⟨delivered.1, Nat.lt_of_lt_of_le delivered.2 (by omega)⟩
      | ok call => simp [Light, Task.weight, Task.size, Continuation.weight, Continuation.size]

/-- Going on after a call lets the size fall, and the weight if an event was to be published. -/
theorem resume_falls (s : Session σ) (answer : Answer) (next : Continuation) :
    Light (s.weight + next.weight) (s.resume answer next) ∧
      (taskSize (s.resume answer next).2 < next.size ∨
        Light (s.weight + next.weight - 1) (s.resume answer next) ∧ 0 < next.weight) := by
  cases next with
  | conclude reading context =>
    exact ⟨light_ended .., by simp [resume, ended, Task.size, Continuation.size]⟩
  | publish event reading context =>
    simp only [resume]
    cases reading.outcome answer <;>
      simp [refuse, publish, Light, Task.weight, Continuation.weight]
  | addColumns table columns context =>
    simp only [resume]
    cases answer.toDone with
    | error e => exact ⟨light_refuse .., by simp [refuse, Task.size, Continuation.size]; omega⟩
    | ok _ =>
      refine ⟨light_addColumns .., .inl ?_⟩
      cases columns with
      | nil => simp [addColumns, Task.size, Continuation.size]
      | cons column rest =>
        simp only [addColumns, request]
        cases Request.addColumn table column.1 column.2 <;>
          simp [refuse, Task.size, Continuation.size] <;> omega
  | deliver key ticket =>
    have delivered := light_deliver s key ticket answer.toRows
    exact ⟨delivered.1, .inl delivered.2⟩

/-- A step lets the weight fall, or keeps it and lets the size of the tasks fall. -/
theorem advance_falls (s : Session σ) (task : Task) :
    (s.advance backend task).1.weight + taskWeight (s.advance backend task).2
        < s.weight + task.weight ∨
      (s.advance backend task).1.weight + taskWeight (s.advance backend task).2
          ≤ s.weight + task.weight ∧
        taskSize (s.advance backend task).2 < task.size := by
  cases task with
  | script commands =>
    cases commands with
    | nil => right; simp [advance, Task.weight, Task.size, scriptWeight]
    | cons command rest =>
      left
      have light := light_perform backend (.nested command.word) (s.record (.asked command)) command
      have := command.one_le_weight
      simp [advance, ask, Light, Task.weight, scriptWeight] at *
      omega
  | round event observers =>
    right
    cases observers with
    | nil => simp [advance, Task.weight, Task.size]
    | cons o rest =>
      have light := light_notify event s o
      simp [advance, Light, Task.weight, Task.size] at *
      omega
  | fetch key =>
    right
    exact light_fetch s key
  | send call next =>
    right
    have := weight_takeHook (s.record (.sent call)) call.kind .before
    simp [advance, Task.weight, Task.size] at *
    omega
  | answer call next =>
    right
    have := weight_takeHook (s.answer backend call).2 call.kind .after
    simp [advance, Task.weight, Task.size] at *
    omega
  | resume call answer next =>
    have falls := resume_falls (s.record (.returned call answer)) answer next
    simp [advance, Light, Task.weight, Task.size] at *
    omega
  | keepQuery label key context => right; simp [advance, Task.weight, Task.size]
  | keepWatch label key context => right; simp [advance, Task.weight, Task.size]
  | conclude context outcome =>
    right
    cases context with
    | top => exact ⟨Nat.le_refl _, by simp [advance, Task.size]⟩
    | nested word => simp [advance, Task.weight, Task.size]

/-- Do the tasks, the first one first, until none is left. -/
def run (s : Session σ) : List Task → Session σ
  | [] => s
  | task :: rest =>
    let p := s.advance backend task
    run p.1 (p.2 ++ rest)
termination_by tasks => (s.weight + taskWeight tasks, taskSize tasks)
decreasing_by
  have falls := advance_falls backend s task
  simp only [Prod.lex_def, taskWeight_append, taskWeight_cons, taskSize_append, taskSize_cons]
  omega

/-- Give a command and run all that it sets off. -/
def give (s : Session σ) (command : Command) : Session σ :=
  let p := s.ask backend .top command
  p.1.run backend p.2

end LiveTable.Session
