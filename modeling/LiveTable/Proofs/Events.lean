import LiveTable.Proofs.Discipline

/-!
# The events of a run

Every event of a run was announced: by the command that was begun, if it drops a table or publishes an
event itself, and by the return of a call that changed a table. The events are published in the order
in which they were announced, each at once, so the history without its publications determines them.
-/

namespace LiveTable

/-- The event that was published. -/
def Happening.published? : Happening → Option ChangeEvent
  | .published event _ => some event
  | _ => none

/-- The event that a command publishes when it is begun. -/
def Command.announced? : Command → Option ChangeEvent
  | .dropTable table => (checkName table).toOption.map fun _ => ⟨table, .dropTable, none⟩
  | .publish table kind row => (Session.readEventRow row).toOption.map fun row => ⟨table, kind, row⟩
  | _ => none

/-- The event that a happening announces. -/
def Happening.announced? : Happening → Option ChangeEvent
  | .asked command => command.announced?
  | .returned _ (.failed _) => none
  | .returned call _ => call.event?
  | _ => none

namespace Session

variable {σ : Type} {backend : Backend σ} {s s' : Session σ} {p p' : Progress σ}

/-- The events that were published and those that were announced, the latest first. -/
def tally (s : Session σ) : List ChangeEvent × List ChangeEvent :=
  (s.history.filterMap Happening.published?, s.history.filterMap Happening.announced?)

/-- What was published is what was announced. -/
def Level (s : Session σ) : Prop := s.tally.1 = s.tally.2

theorem tally_record (s : Session σ) (h : Happening) :
    (s.record h).tally = (h.published?.toList ++ s.tally.1, h.announced?.toList ++ s.tally.2) := by
  simp only [tally, record, List.filterMap_cons]
  cases h.published? <;> cases h.announced? <;> rfl

theorem tally_inner (s : Session σ) {h : Happening} (published : h.published? = none)
    (announced : h.announced? = none) : (s.record h).tally = s.tally := by
  rw [tally_record, published, announced]
  rfl

theorem tally_of_history (same : s'.history = s.history) : s'.tally = s.tally := by
  rw [tally, same]
  rfl

theorem Alike.tally (alike : Alike s s') : s'.tally = s.tally := tally_of_history alike.history

theorem tally_disposeQuery (s : Session σ) (key : Nat) : (s.disposeQuery key).tally = s.tally := by
  cases queryDisposed s key with
  | idle inactive done => rw [done]
  | ended query active done =>
    rw [done]
    exact tally_inner _ rfl rfl

theorem tally_disposeWatch (s : Session σ) (key : Nat) : (s.disposeWatch key).tally = s.tally := by
  cases watchDisposed s key with
  | idle inactive done => rw [done]
  | ended watch active done =>
    rw [done]
    exact tally_inner _ rfl rfl

theorem tally_foldl {dispose : Session σ → Nat → Session σ}
    (keeps : ∀ s key, (dispose s key).tally = s.tally) (keys : List Nat) (s : Session σ) :
    (keys.foldl dispose s).tally = s.tally := by
  induction keys generalizing s with
  | nil => rfl
  | cons key rest ih => exact (ih _).trans (keeps s key)

theorem tally_dropAll (s : Session σ) : s.dropAll.tally = s.tally :=
  (tally_foldl tally_disposeWatch _ _).trans (tally_foldl tally_disposeQuery _ s)

/-! ## Commands -/

theorem session_request (s : Session σ) (context : Context) (call : Except Error Call)
    (next : Continuation) : (s.request context call next).1 = s := by
  cases call <;> rfl

theorem session_addColumns (s : Session σ) (table : String) (context : Context)
    (columns : List (String × ColumnDef)) : (s.addColumns table context columns).1 = s := by
  cases columns with
  | nil => rfl
  | cons column rest => exact session_request ..

theorem tally_withArgument {α : Type} (s : Session σ) (context : Context)
    {argument : Except Failure α} {next : α → Progress σ}
    (keeps : ∀ a, (next a).1.tally = s.tally) :
    (s.withArgument context argument next).1.tally = s.tally := by
  cases argument with
  | error f => rfl
  | ok a => exact keeps a

theorem tally_withHandle {α : Type} (s : Session σ) (context : Context) {handle : Option α}
    {next : α → Progress σ} (keeps : ∀ a, (next a).1.tally = s.tally) :
    (s.withHandle context handle next).1.tally = s.tally := by
  cases handle with
  | none => rfl
  | some a => exact keeps a

variable (backend) in
/-- Performing a command publishes what the command announced. -/
theorem tally_perform (context : Context) (s : Session σ) (command : Command) :
    (s.perform backend context command).1.tally =
      (command.announced?.toList ++ s.tally.1, s.tally.2) := by
  have requests (call : Except Error Call) (next : Continuation) :
      (s.request context call next).1.tally = s.tally := by rw [session_request]
  cases command with
  | createTable table pairs => exact tally_withArgument s context fun spec => requests _ _
  | addColumns table pairs =>
    refine tally_withArgument s context fun spec => ?_
    cases checkName table with
    | error e => rfl
    | ok _ =>
      show (s.addColumns table context spec.entries).1.tally = s.tally
      rw [session_addColumns]
  | createIndex table column => exact requests _ _
  | dropTable table =>
    simp only [perform, Request.dropTable, Command.announced?]
    cases checkName table with
    | error e => rfl
    | ok _ => exact tally_record s (.published ⟨table, .dropTable, none⟩ _)
  | tables => rfl
  | schema table => exact requests _ _
  | validateSchema table columns =>
    simp only [perform]
    split
    · rfl
    · exact requests _ _
  | insert table row => exact tally_withArgument s context fun row => requests _ _
  | update table filter row =>
    exact tally_withArgument s context fun filter =>
      tally_withArgument s context fun row => requests _ _
  | delete table filter => exact tally_withArgument s context fun filter => requests _ _
  | select table columns filter order =>
    exact tally_withArgument s context fun spec => requests _ _
  | raw kind text params => rfl
  | reply replies => rfl
  | hook kind moment script => rfl
  | reopen =>
    simp only [perform]
    cases backend.reopen s.dropAll.storage with
    | error e => exact tally_dropAll s
    | ok storage => exact tally_dropAll s
  | subscribe table label plan => rfl
  | unsubscribe label => exact tally_withHandle s context fun subscription => rfl
  | publish table kind row =>
    simp only [perform, Command.announced?]
    cases readEventRow row with
    | error f => rfl
    | ok row => exact tally_record s (.published ⟨table, kind, row⟩ _)
  | count table => rfl
  | describeBus => rfl
  | openQuery table columns filter order label plan =>
    exact tally_withArgument s context fun spec => rfl
  | refresh label => exact tally_withHandle s context fun key => rfl
  | disposeQuery label => exact tally_withHandle s context fun key => tally_disposeQuery s key
  | dropQuery label => exact tally_withHandle s context fun key => tally_disposeQuery _ key
  | queryState label => exact tally_withHandle s context fun q => rfl
  | openWatch table label plan =>
    exact (alike_watchScript _ _).tally.trans (tally_inner (s.addWatch table label plan).2 rfl rfl)
  | watchState label => exact tally_withHandle s context fun w => rfl
  | disposeWatch label => exact tally_withHandle s context fun key => tally_disposeWatch s key
  | dropWatch label => exact tally_withHandle s context fun key => tally_disposeWatch _ key
  | unknown word => rfl

variable (backend) in
theorem level_ask (context : Context) (level : Level s) (command : Command) :
    Level (s.ask backend context command).1 := by
  rw [Level, ask, tally_perform, tally_record]
  exact congrArg (command.announced?.toList ++ ·) level

/-! ## Steps -/

theorem tally_notify (event : ChangeEvent) (s : Session σ) (observer : Observer) :
    (s.notify event observer).1.tally = s.tally := by
  cases observer with
  | listener key => exact (alike_listenerScript _ key).tally.trans (tally_inner s rfl rfl)
  | query key => rfl
  | watch key =>
    simp only [notify]
    split
    · rfl
    · split
      · exact (alike_watchScript _ key).tally.trans (tally_inner s rfl rfl)
      · rfl

theorem tally_deliver (s : Session σ) (key ticket : Nat) (result : Except Error (List Row)) :
    (s.deliver key ticket result).1.tally = s.tally := by
  have arrived : (s.record (.arrived key ticket result)).tally = s.tally := tally_inner s rfl rfl
  cases delivered s key ticket result with
  | lost none done => rw [done]
  | accepted query active new calls done =>
    rw [done, calls.tally, takeResult, tally_inner _ (by cases result <;> rfl) (by cases result <;> rfl)]
    exact arrived
  | discarded query late done => rw [done, tally_inner _ rfl rfl, arrived]

theorem tally_fetch (s : Session σ) (key : Nat) : (s.fetch key).1.tally = s.tally := by
  have starts (ticket : Nat) : (s.startFetch key ticket).tally = s.tally :=
    tally_inner (s.setQuery key _) rfl rfl
  cases fetched s key with
  | idle inactive done => rw [done]
  | refused query active invalid done => rw [done, tally_deliver, starts]
  | started query active valid done => rw [done, starts]

theorem tally_keepQuery (s : Session σ) (label : String) (key : Nat) :
    (s.keepQuery label key).tally = s.tally := by
  unfold keepQuery
  cases s.queryHandles.get? label with
  | none => rfl
  | some old => exact tally_disposeQuery _ old

theorem tally_keepWatch (s : Session σ) (label : String) (key : Nat) :
    (s.keepWatch label key).tally = s.tally := by
  unfold keepWatch
  cases s.watchHandles.get? label with
  | none => rfl
  | some old => exact tally_disposeWatch _ old

/-- A call that comes back publishes what its return announces. -/
theorem level_resume (level : Level s) {call : Call} {answer : Answer} {next : Continuation}
    (fits : next.Fits call) : Level (s.advance backend (.resume call answer next)).1 := by
  -- Without an event of the call, its return announces nothing and nothing is published.
  have quiet (none : call.event? = none) {s' : Session σ}
      (same : s'.tally = (s.record (.returned call answer)).tally) : Level s' := by
    have announced : (Happening.returned call answer).announced? = Option.none := by
      cases answer <;> simp [Happening.announced?, none]
    rw [Level, same, tally_inner s rfl announced]
    exact level
  cases next with
  | conclude reading context => exact quiet fits rfl
  | addColumns table columns context =>
    refine quiet fits ?_
    simp only [advance, resume]
    split
    · rfl
    · rw [session_addColumns]
  | deliver key ticket => exact quiet fits (tally_deliver _ key ticket _)
  | publish event reading context =>
    obtain ⟨announces, failures⟩ := fits
    simp only [advance, resume]
    cases outcome : reading.outcome answer with
    | error e =>
      obtain ⟨message, rfl, rfl⟩ := (failures answer e).mp outcome
      have failed : (s.record (.returned call (.failed message))).tally = s.tally :=
        tally_inner s rfl rfl
      show Level (s.record (.returned call (.failed message)))
      rw [Level, failed]
      exact level
    | ok result =>
      have announced : (Happening.returned call answer).announced? = some event := by
        cases answer with
        | failed message =>
          rw [outcome_failed] at outcome
          cases outcome
        | _ => exact announces
      simp only [publish]
      rw [Level, tally_record, tally_record, announced]
      exact congrArg (event :: ·) level

theorem level_advance (level : Level s) {task : Task}
    (fits : ∀ call next, task.continuation? = some (call, next) → next.Fits call) :
    Level (s.advance backend task).1 := by
  have keeps {s' : Session σ} (same : s'.tally = s.tally) : Level s' := by
    rw [Level, same]
    exact level
  cases task with
  | script commands =>
    cases commands with
    | nil => exact level
    | cons command rest => exact level_ask backend _ level command
  | round event observers =>
    cases observers with
    | nil => exact level
    | cons observer rest => exact keeps (tally_notify event s observer)
  | fetch key => exact keeps (tally_fetch s key)
  | send call next => exact keeps ((alike_takeHook _ _ _).tally.trans (tally_inner s rfl rfl))
  | answer call next =>
    exact keeps ((alike_takeHook _ _ _).tally.trans (tally_of_history (history_answer call s)))
  | resume call answer next => exact level_resume level (fits call next rfl)
  | keepQuery label key context => exact keeps (tally_keepQuery s label key)
  | keepWatch label key context => exact keeps (tally_keepWatch s label key)
  | conclude context outcome =>
    have finished : (s.record (.finished context outcome)).tally = s.tally := tally_inner s rfl rfl
    simp only [advance]
    split <;> exact keeps finished

/-- At every point of a run, what was published is what was announced. -/
theorem Reachable.level (reachable : Reachable backend p) : Level p.1 := by
  induction reachable with
  | start storage scripted now => rfl
  | step former step ih =>
    cases step with
    | advance s task rest =>
      exact level_advance ih fun call next waits =>
        (former.fitting task (List.mem_cons_self ..) call next waits).1
    | tick s tasks now => exact ih
    | give s command => exact level_ask backend .top ih command

/-- A call of the store with valid arguments does its acts in order up to the first statement that
fails, whose error it returns, and sends and publishes nothing else. So over any run the events
published are those that the commands and the answers of the storage announced. -/
theorem store_discipline :
    (∀ (s : Session σ) (context : Context) (command : Command) (acts : List Act),
      command.Does s.now acts →
        (∃ happened, Own backend s (s.ask backend context command) happened) ∧
        ∀ happened, Own backend s (s.ask backend context command) happened →
          ∃ rest, happened = .asked command :: rest ∧ Follows context acts rest) ∧
    ∀ p : Progress σ, Reachable backend p →
      p.1.history.filterMap Happening.published? = p.1.history.filterMap Happening.announced? := by
  constructor
  · intro s context command acts does
    exact ⟨own_exists s _ _, fun happened own => own.follows does⟩
  · intro p reachable
    exact reachable.level

/-- A row with one cell. -/
def single : Row := .ofList [("c", .integer 1)]

/-- The update that sets the cell in every row. -/
def overwrite : Command := .update "t" (.value ⟨[]⟩) (.value single)

/-- What the update does. -/
def overwriting : List Act :=
  [.statement ⟨.run, .update "t" ["c"] [], [.integer 1]⟩, .event ⟨"t", .update, some single⟩]

/-- A session with an observer that inserts a row when it is told of a change. -/
def echoing : Progress Unit :=
  play .mute 40 (.start () true 0, []) [.subscribe "t" "echo" [[.insert "t" (.value single)]]]

/-- The session after the update. -/
def echoed : Progress Unit := play .mute 40 echoing [overwrite]

theorem echoed_disciplined :
    (overwrite.Does echoing.1.now overwriting ∧
      (∃ happened, Own .mute echoing.1 (echoing.1.ask .mute .top overwrite) happened) ∧
      ∀ happened, Own .mute echoing.1 (echoing.1.ask .mute .top overwrite) happened →
        ∃ rest, happened = .asked overwrite :: rest ∧ Follows .top overwriting rest) ∧
    Reachable .mute echoed ∧
      echoed.1.history.filterMap Happening.published? =
        [⟨"t", .insert, none⟩, ⟨"t", .update, some single⟩] ∧
      echoed.1.history.filterMap Happening.published? =
        echoed.1.history.filterMap Happening.announced? := by
  have does : overwrite.Does echoing.1.now overwriting := .update rfl rfl rfl
  have reachable : Reachable .mute echoed := (reachable_play 40 () _).later (later_play 40 _ _)
  exact ⟨⟨does, store_discipline.1 _ .top overwrite _ does⟩, reachable, rfl,
    store_discipline.2 _ reachable⟩

end Session

end LiveTable
