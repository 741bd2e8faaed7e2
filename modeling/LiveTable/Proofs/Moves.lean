import LiveTable.Proofs.Effects
import LiveTable.Proofs.Requests
import LiveTable.Proofs.Runs

/-!
# What a step can do

The steps of a run are many, but what they do to the observers is little: a session moves by
registering an observer, by taking a registration back, and by bookkeeping. Performing a command,
calling an observer and ending a command are rows of such moves. Only a fetch, the passage of a call
through the storage and the reopening of the store are not; they are left as they are.
-/

namespace LiveTable

/-- The query or the watch that a happening is about. -/
def Happening.about : Happening → Option Observer
  | .fetched key _ => some (.query key)
  | .arrived key _ _ => some (.query key)
  | .discarded key _ => some (.query key)
  | .updated key _ _ _ => some (.query key)
  | .failed key _ _ _ => some (.query key)
  | .queryDisposed key => some (.query key)
  | .notified key _ => some (.watch key)
  | .watchDisposed key => some (.watch key)
  | _ => none

/-- The event that the store publishes when a call has succeeded. An update's event has the row that
it set: its first parameters, under the names of its columns. -/
def Call.event? (call : Call) : Option ChangeEvent :=
  match call.statement with
  | .createTable table _ => some ⟨table, .createTable, none⟩
  | .insert table _ => some ⟨table, .insert, none⟩
  | .update table names _ => some ⟨table, .update, some (.ofList (names.zip call.params))⟩
  | .delete table _ => some ⟨table, .delete, none⟩
  | _ => none

/-- The ticket of the fetch of a query that waits for a call. -/
@[simp] def Continuation.ticket? (key : Nat) : Continuation → Option Nat
  | .deliver k ticket => if k = key then some ticket else none
  | _ => none

/-- What follows a call fits it if it publishes the event of the call, and if only a failure of the
storage keeps the event from being published. -/
def Continuation.Fits (call : Call) : Continuation → Prop
  | .publish event reading _ => call.event? = some event ∧
      ∀ answer e, reading.outcome answer = .error e ↔
        ∃ message, answer = .failed message ∧ e = .storage message
  | _ => call.event? = none

/-- What follows the call of a task. -/
@[simp] def Task.continuation? : Task → Option (Call × Continuation)
  | .send call next => some (call, next)
  | .answer call next => some (call, next)
  | .resume call _ next => some (call, next)
  | _ => none

/-- The ticket of the fetch of a query that a task will deliver. -/
@[simp] def Task.ticket? (key : Nat) : Task → Option Nat
  | .send _ next => next.ticket? key
  | .answer _ next => next.ticket? key
  | .resume _ _ next => next.ticket? key
  | _ => none

namespace Session

variable {σ : Type} {backend : Backend σ} {s s' : Session σ} {p : Progress σ}

/-- One move of a session. -/
inductive Move : Session σ → Session σ → Prop
  | aside {s s' : Session σ} (alike : Alike s s') : Move s s'
  | queue (s : Session σ) (replies : List Reply) : Move s { s with replies := s.replies ++ replies }
  | record (s : Session σ) {h : Happening} (neutral : h.about = none) : Move s (s.record h)
  | listen (s : Session σ) (table label : String) (plan : Plan) : Move s (s.addListener table label plan)
  | unlisten (s : Session σ) {label : String} {subscription : Subscription}
    (kept : s.subscriptions.get? label = some subscription) : Move s (s.dropListener label subscription)
  | openQuery (s : Session σ) (spec : QuerySpec) (label : String) (plan : Plan) :
    Move s (s.addQuery spec label plan).2
  | openWatch (s : Session σ) (table label : String) (plan : Plan) :
    Move s ((s.addWatch table label plan).2.record (.notified s.watches.length label))
  | notify (s : Session σ) {key : Nat} {w : Watch} (watch : s.watches[key]? = some w)
    (active : w.active = true) : Move s (s.record (.notified key w.label))
  | disposeQuery (s : Session σ) (key : Nat) : Move s (s.disposeQuery key)
  | disposeWatch (s : Session σ) (key : Nat) : Move s (s.disposeWatch key)

/-- Any number of moves. -/
abbrev Moves : Session σ → Session σ → Prop := Relation.ReflTransGen Move

theorem Alike.moves (alike : Alike s s') : Moves s s' := .single (.aside alike)

/-- What performing a command leads to: moves of the session, calls that are to be sent but no
result of a fetch, and the first fetch of every query that was opened. -/
structure Performed (s : Session σ) (p : Progress σ) : Prop where
  moves : Moves s p.1
  /-- Nobody prepares replies for the storage but who asks for it. -/
  replies : p.1.replies = s.replies ∨ ∃ replies, .asked (.reply replies) ∈ p.1.history
  quiet : ∀ task ∈ p.2, ∀ key, task.ticket? key = none
  sends : ∀ task ∈ p.2, ∀ call next, task.continuation? = some (call, next) →
    task = .send call next ∧ next.Fits call
  fetches : ∀ key, s.queries.length ≤ key → key < p.1.queries.length → .fetch key ∈ p.2

/-! ## Commands -/

/-- A task that waits for no call delivers no fetch. -/
theorem ticket?_idle {task : Task} (idle : task.continuation? = none) (key : Nat) :
    task.ticket? key = none := by
  cases task <;> first | rfl | cases idle

/-- Moves that open no query may leave any tasks that wait for no call. -/
theorem Performed.leave {tasks : List Task} (moves : Moves s s')
    (length : s'.queries.length = s.queries.length) (replies : s'.replies = s.replies)
    (idle : ∀ task ∈ tasks, task.continuation? = none) : Performed s (s', tasks) where
  moves := moves
  replies := .inl replies
  quiet task member := ticket?_idle (idle task member)
  sends task member call next waits := by
    rw [idle task member] at waits
    cases waits
  fetches key low high := absurd (length ▸ high) (Nat.not_lt.mpr low)

theorem Performed.conclude (moves : Moves s s') (length : s'.queries.length = s.queries.length)
    (replies : s'.replies = s.replies) (context : Context) (outcome : Outcome) :
    Performed s (s', [.conclude context outcome]) := .leave moves length replies (by simp)

theorem Performed.idle (s : Session σ) : Performed s (s, []) := .leave .refl rfl rfl (by simp)

theorem Performed.send (s : Session σ) {call : Call} {next : Continuation} (fits : next.Fits call)
    (quiet : ∀ key, next.ticket? key = none) : Performed s (s, [.send call next]) where
  moves := .refl
  replies := .inl rfl
  quiet := by simpa using quiet
  sends := by
    intro task member call' next' waits
    rw [List.mem_singleton] at member
    subst member
    cases waits
    exact ⟨rfl, fits⟩
  fetches key low high := absurd high (Nat.not_lt.mpr low)

theorem performed_refuse (s : Session σ) (context : Context) (f : Failure) :
    Performed s (s.refuse context f) := .conclude .refl rfl rfl context _

theorem performed_request (s : Session σ) (context : Context) {request : Except Error Call}
    {next : Continuation} (fits : ∀ call, request = .ok call → next.Fits call)
    (quiet : ∀ key, next.ticket? key = none) :
    Performed s (s.request context request next) := by
  cases request with
  | error e => exact performed_refuse s context _
  | ok call => exact .send s (fits call rfl) quiet

theorem performed_withArgument {α : Type} (s : Session σ) (context : Context)
    (argument : Except Failure α) {next : α → Progress σ} (performed : ∀ a, Performed s (next a)) :
    Performed s (s.withArgument context argument next) := by
  cases argument with
  | error f => exact performed_refuse s context f
  | ok a => exact performed a

theorem performed_withHandle {α : Type} (s : Session σ) (context : Context) {handle : Option α}
    {next : α → Progress σ} (performed : ∀ a, handle = some a → Performed s (next a)) :
    Performed s (s.withHandle context handle next) := by
  cases handle with
  | none => exact performed_refuse s context _
  | some a => exact performed a rfl

/-- An update announces the row that it sets, whatever selects the rows. -/
theorem event?_update (table : String) (row : Row) (tests : List Test) (more : List Value) :
    Call.event? ⟨.run, .update table row.names tests, row.values ++ more⟩ =
      some ⟨table, .update, some row⟩ :=
  congrArg (fun row => some (ChangeEvent.mk table .update (some row))) (Ordered.ofList_zip row more)

theorem fits_publish {call : Call} {event : ChangeEvent} (announces : call.event? = some event)
    {reading : Reading} (simple : reading = .done ∨ reading = .inserted ∨ reading = .count)
    (context : Context) : (Continuation.publish event reading context).Fits call := by
  refine ⟨announces, fun answer e => ?_⟩
  rcases simple with rfl | rfl | rfl <;> cases answer <;>
    simp [Reading.outcome, Answer.toDone, Answer.toChanged, Except.map, eq_comm]

theorem length_setQuery (s : Session σ) (key : Nat) (f : Query → Query) :
    (s.setQuery key f).queries.length = s.queries.length := List.length_modify ..

theorem length_disposeQuery (s : Session σ) (key : Nat) :
    (s.disposeQuery key).queries.length = s.queries.length := by
  cases queryDisposed s key with
  | idle inactive done => rw [done]
  | ended query active done =>
    rw [done]
    exact length_setQuery ..

theorem replies_disposeQuery (s : Session σ) (key : Nat) :
    (s.disposeQuery key).replies = s.replies := by
  cases queryDisposed s key with
  | idle inactive done => rw [done]
  | ended query active done => rw [done]; rfl

theorem replies_disposeWatch (s : Session σ) (key : Nat) :
    (s.disposeWatch key).replies = s.replies := by
  cases watchDisposed s key with
  | idle inactive done => rw [done]
  | ended watch active done => rw [done]; rfl

theorem queries_disposeWatch (s : Session σ) (key : Nat) :
    (s.disposeWatch key).queries = s.queries := by
  cases watchDisposed s key with
  | idle inactive done => rw [done]
  | ended watch active done => rw [done]; rfl

theorem performed_addColumns (s : Session σ) (table : String) (context : Context)
    (columns : List (String × ColumnDef)) : Performed s (s.addColumns table context columns) := by
  cases columns with
  | nil => exact .conclude .refl rfl rfl context _
  | cons column rest =>
    refine performed_request s context (fun call accepted => ?_) fun _ => rfl
    obtain ⟨-, rfl⟩ := Request.addColumn_eq_ok.mp accepted
    rfl

theorem performed_publish (s : Session σ) (event : ChangeEvent) {task : Task}
    (quiet : ∀ key, task.ticket? key = none)
    (sends : ∀ call next, task.continuation? = some (call, next) →
      task = .send call next ∧ next.Fits call) :
    Performed s ((s.publish event).1, [(s.publish event).2, task]) where
  moves := .single (.record s rfl)
  replies := .inl rfl
  quiet := by simpa [publish] using quiet
  sends := by simpa [publish] using sends
  fetches key low high := absurd high (Nat.not_lt.mpr low)

variable (backend) in
/-- Every command but the reopening of the store is a row of moves. -/
theorem performed_perform (context : Context) (s : Session σ) {command : Command}
    (same : command ≠ .reopen) (asked : .asked command ∈ s.history) :
    Performed s (s.perform backend context command) := by
  cases command with
  | createTable table pairs =>
    refine performed_withArgument s context _ fun spec =>
      performed_request s context (fun call accepted => ?_) fun _ => rfl
    obtain ⟨-, -, rfl⟩ := Request.createTable_eq_ok.mp accepted
    exact fits_publish rfl (.inl rfl) context
  | addColumns table pairs =>
    refine performed_withArgument s context _ fun spec => ?_
    cases checkName table with
    | error e => exact performed_refuse s context _
    | ok _ => exact performed_addColumns s table context _
  | createIndex table column =>
    refine performed_request s context (fun call accepted => ?_) fun _ => rfl
    obtain ⟨-, -, rfl⟩ := Request.createIndex_eq_ok.mp accepted
    rfl
  | dropTable table =>
    simp only [perform]
    cases accepted : Request.dropTable table with
    | error e => exact performed_refuse s context _
    | ok call =>
      obtain ⟨-, rfl⟩ := Request.dropTable_eq_ok.mp accepted
      refine performed_publish s _ (fun _ => rfl) fun call next waits => ?_
      cases waits
      exact ⟨rfl, rfl⟩
  | tables => exact .send s rfl fun _ => rfl
  | schema table =>
    refine performed_request s context (fun call accepted => ?_) fun _ => rfl
    obtain ⟨-, rfl⟩ := Request.tableInfo_eq_ok.mp accepted
    rfl
  | validateSchema table columns =>
    simp only [perform]
    split
    · exact performed_refuse s context _
    · refine performed_request s context (fun call accepted => ?_) fun _ => rfl
      obtain ⟨-, rfl⟩ := Request.tableInfo_eq_ok.mp accepted
      rfl
  | insert table row =>
    refine performed_withArgument s context _ fun row =>
      performed_request s context (fun call accepted => ?_) fun _ => rfl
    obtain ⟨-, -, rfl⟩ := Request.insert_eq_ok.mp accepted
    exact fits_publish rfl (.inr (.inl rfl)) context
  | update table filter row =>
    refine performed_withArgument s context _ fun filter =>
      performed_withArgument s context _ fun row =>
        performed_request s context (fun call accepted => ?_) fun _ => rfl
    obtain ⟨-, -, predicate, -, rfl⟩ := Request.update_eq_ok.mp accepted
    exact fits_publish (event?_update table row _ _) (.inr (.inr rfl)) context
  | delete table filter =>
    refine performed_withArgument s context _ fun filter =>
      performed_request s context (fun call accepted => ?_) fun _ => rfl
    obtain ⟨-, predicate, -, rfl⟩ := Request.delete_eq_ok.mp accepted
    exact fits_publish rfl (.inr (.inr rfl)) context
  | select table columns filter order =>
    refine performed_withArgument s context _ fun spec =>
      performed_request s context (fun call accepted => ?_) fun _ => rfl
    obtain ⟨-, -, predicate, -, -, rfl⟩ := Request.select_eq_ok.mp accepted
    rfl
  | raw kind text params => exact .send s rfl fun _ => rfl
  | reply replies =>
    exact {
      moves := .single (.queue s replies)
      replies := .inr ⟨replies, asked⟩
      quiet := by simp [perform, ended]
      sends := by simp [perform, ended]
      fetches := fun key low high => absurd high (Nat.not_lt.mpr low) }
  | hook kind moment script =>
    have queues : Alike s { s with hooks := s.hooks ++ [Hook.mk kind moment script] } :=
      ⟨rfl, rfl, rfl, rfl, rfl, rfl, rfl⟩
    exact .conclude queues.moves rfl rfl context _
  | reopen => exact absurd rfl same
  | subscribe table label plan =>
    exact .conclude (.single (.listen s table label plan)) rfl rfl context _
  | unsubscribe label =>
    exact performed_withHandle s context fun subscription kept =>
      .conclude (.single (.unlisten s kept)) rfl rfl context _
  | publish table kind row =>
    exact performed_withArgument s context _ fun row =>
      performed_publish s _ (fun _ => rfl) fun call next waits => by cases waits
  | count table => exact .conclude .refl rfl rfl context _
  | describeBus => exact .conclude .refl rfl rfl context _
  | openQuery table columns filter order label plan =>
    refine performed_withArgument s context _ fun spec => ?_
    exact {
      moves := .single (.openQuery s spec label plan)
      replies := .inl rfl
      quiet := by simp
      sends := by simp
      fetches := by
        intro key low high
        simp only [addQuery, List.length_append, List.length_singleton] at high ⊢
        have : key = s.queries.length := by omega
        simp [this] }
  | refresh label =>
    refine performed_withHandle s context fun key kept => ?_
    exact .leave .refl rfl rfl (by simp)
  | disposeQuery label =>
    exact performed_withHandle s context fun key kept =>
      .conclude (.single (.disposeQuery s key)) (length_disposeQuery s key)
        (replies_disposeQuery s key) context _
  | dropQuery label =>
    refine performed_withHandle s context fun key kept => ?_
    have forgets : Alike s { s with queryHandles := s.queryHandles.erase label } :=
      ⟨rfl, rfl, rfl, rfl, rfl, rfl, rfl⟩
    exact .conclude (forgets.moves.tail (.disposeQuery _ key)) (length_disposeQuery _ key)
      (replies_disposeQuery _ key) context _
  | queryState label => exact performed_withHandle s context fun q kept => .conclude .refl rfl rfl context _
  | openWatch table label plan =>
    have reads := alike_watchScript ((s.addWatch table label plan).2.record
      (.notified (s.addWatch table label plan).1 label)) (s.addWatch table label plan).1
    exact .leave (.head (.openWatch s table label plan) reads.moves) reads.length_queries
      reads.replies (by simp)
  | watchState label => exact performed_withHandle s context fun w kept => .conclude .refl rfl rfl context _
  | disposeWatch label =>
    refine performed_withHandle s context fun key kept => ?_
    exact .conclude (.single (.disposeWatch s key))
      (congrArg List.length (queries_disposeWatch s key)) (replies_disposeWatch s key) context _
  | dropWatch label =>
    refine performed_withHandle s context fun key kept => ?_
    have forgets : Alike s { s with watchHandles := s.watchHandles.erase label } :=
      ⟨rfl, rfl, rfl, rfl, rfl, rfl, rfl⟩
    exact .conclude (forgets.moves.tail (.disposeWatch _ key))
      (congrArg List.length (queries_disposeWatch _ key)) (replies_disposeWatch _ key) context _
  | unknown word => exact performed_refuse s context _

/-! ## The history grows -/

theorem history_disposeQuery (s : Session σ) (key : Nat) :
    s.history <:+ (s.disposeQuery key).history := by
  cases queryDisposed s key with
  | idle inactive done => simp [done]
  | ended query active done =>
    rw [done]
    exact List.suffix_cons _ _

theorem history_disposeWatch (s : Session σ) (key : Nat) :
    s.history <:+ (s.disposeWatch key).history := by
  cases watchDisposed s key with
  | idle inactive done => simp [done]
  | ended watch active done =>
    rw [done]
    exact List.suffix_cons _ _

theorem Move.history (move : Move s s') : s.history <:+ s'.history := by
  cases move with
  | aside alike => exact alike.history ▸ List.suffix_refl _
  | queue replies => exact List.suffix_refl _
  | record neutral => exact List.suffix_cons _ _
  | listen table label plan => exact List.suffix_refl _
  | unlisten kept => exact List.suffix_refl _
  | openQuery spec label plan => exact List.suffix_refl _
  | openWatch table label plan => exact List.suffix_cons _ _
  | notify watch active => exact List.suffix_cons _ _
  | disposeQuery key => exact history_disposeQuery s key
  | disposeWatch key => exact history_disposeWatch s key

theorem Moves.history (moves : Moves s s') : s.history <:+ s'.history := by
  induction moves with
  | refl => exact List.suffix_refl _
  | tail _ move ih => exact ih.trans move.history

/-! ## Steps -/

/-- A session that lost its handles and registrations, and nothing else that observers have. -/
structure Dropped (s s' : Session σ) : Prop where
  bus : s'.bus = s.bus.clear
  queries : s'.queries = s.queries
  watches : s'.watches = s.watches
  subscriptions : s'.subscriptions = .empty
  history : s'.history = s.history

/-- What reopening the store leaves of the observers: handles and registrations are gone. -/
structure Reopened (s s' : Session σ) : Prop where
  asked : .asked .reopen ∈ s'.history
  moved : ∃ between, Moves s between ∧ Dropped between s'

theorem moves_foldl {dispose : Session σ → Nat → Session σ} (move : ∀ s key, Move s (dispose s key))
    (keys : List Nat) (s : Session σ) : Moves s (keys.foldl dispose s) := by
  induction keys generalizing s with
  | nil => exact .refl
  | cons key rest ih => exact .head (move s key) (ih (dispose s key))

/-- Dropping everything disposes what has a handle. -/
theorem moves_dropAll (s : Session σ) : ∃ between, Moves s between ∧ Dropped between s.dropAll :=
  ⟨_, (moves_foldl .disposeQuery s.queryHandles.values s).trans (moves_foldl .disposeWatch _ _),
    rfl, rfl, rfl, rfl, rfl⟩

variable (backend) in
/-- Beginning a command is a row of moves, or reopens the store. -/
theorem asked_cases (context : Context) (s : Session σ) (command : Command) :
    Performed s (s.ask backend context command) ∨
      Reopened s (s.ask backend context command).1 ∧
        ∃ outcome, (s.ask backend context command).2 = [.conclude context outcome] := by
  have asks : Move s (s.record (.asked command)) := .record s rfl
  by_cases same : command = .reopen
  · subst same
    obtain ⟨between, moves, dropped⟩ := moves_dropAll (s.record (.asked .reopen))
    have asked : .asked .reopen ∈ between.history := moves.history.subset (List.mem_cons_self ..)
    right
    simp only [ask, perform]
    cases backend.reopen (s.record (.asked .reopen)).dropAll.storage <;>
      exact ⟨⟨dropped.history ▸ asked, between, .head asks moves, { dropped with }⟩, _, rfl⟩
  · left
    have performed := performed_perform backend context (s.record (.asked command)) same
      (List.mem_cons_self ..)
    exact { performed with moves := .head asks performed.moves }

theorem performed_notify (event : ChangeEvent) (s : Session σ) (observer : Observer) :
    Performed s (s.notify event observer) := by
  cases observer with
  | listener key =>
    have reads := alike_listenerScript
      (s.record (.observed key ((s.listeners[key]?.map (·.label)).getD "") event)) key
    exact .leave (.head (.record s rfl) reads.moves) reads.length_queries reads.replies (by simp)
  | query key => exact .leave .refl rfl rfl (by simp)
  | watch key =>
    simp only [notify]
    cases watch : s.watches[key]? with
    | none => exact .idle s
    | some w =>
      cases active : w.active with
      | false => simpa [active] using Performed.idle s
      | true =>
        have reads := alike_watchScript (s.record (.notified key w.label)) key
        simp only [active, if_true]
        exact .leave (.head (.notify s watch active) reads.moves) reads.length_queries reads.replies
          (by simp)

/-- A task may come behind the tasks that performing leaves, if it delivers nothing. -/
theorem Performed.before (performed : Performed s p) {task : Task}
    (quiet : ∀ key, task.ticket? key = none) (idle : task.continuation? = none) :
    Performed s (p.1, p.2 ++ [task]) where
  moves := performed.moves
  replies := performed.replies
  quiet other member := by
    rcases List.mem_append.mp member with member | member
    · exact performed.quiet other member
    · rw [List.mem_singleton.mp member]
      exact quiet
  sends other member call next waits := by
    rcases List.mem_append.mp member with member | member
    · exact performed.sends other member call next waits
    · rw [List.mem_singleton.mp member, idle] at waits
      cases waits
  fetches key low high := List.mem_append_left _ (performed.fetches key low high)

theorem performed_keepQuery (s : Session σ) (label : String) (key : Nat) (context : Context) :
    Performed s (s.keepQuery label key, [.conclude context .done]) := by
  have keeps : Alike s { s with queryHandles := s.queryHandles.insert label key } :=
    ⟨rfl, rfl, rfl, rfl, rfl, rfl, rfl⟩
  unfold keepQuery
  cases s.queryHandles.get? label with
  | none => exact .conclude keeps.moves rfl rfl context _
  | some old =>
    exact .conclude (keeps.moves.tail (.disposeQuery _ old)) (length_disposeQuery _ old)
      (replies_disposeQuery _ old) context _

theorem performed_keepWatch (s : Session σ) (label : String) (key : Nat) (context : Context) :
    Performed s (s.keepWatch label key, [.conclude context .done]) := by
  have keeps : Alike s { s with watchHandles := s.watchHandles.insert label key } :=
    ⟨rfl, rfl, rfl, rfl, rfl, rfl, rfl⟩
  unfold keepWatch
  cases s.watchHandles.get? label with
  | none => exact .conclude keeps.moves rfl rfl context _
  | some old =>
    exact .conclude (keeps.moves.tail (.disposeWatch _ old))
      (congrArg List.length (queries_disposeWatch _ old)) (replies_disposeWatch _ old) context _

theorem performed_resume (s : Session σ) (answer : Answer) (next : Continuation)
    (quiet : ∀ key, next.ticket? key = none) : Performed s (s.resume answer next) := by
  cases next with
  | conclude reading context => exact .conclude .refl rfl rfl context _
  | publish event reading context =>
    simp only [resume]
    cases reading.outcome answer with
    | error e => exact performed_refuse s context _
    | ok result => exact performed_publish s event (fun _ => rfl) fun call next waits => by cases waits
  | addColumns table columns context =>
    simp only [resume]
    cases answer.toDone with
    | error e => exact performed_refuse s context _
    | ok _ => exact performed_addColumns s table context columns
  | deliver key ticket => simpa using quiet key

variable (backend) in
theorem performed_returned (s : Session σ) (call : Call) (answer : Answer) {next : Continuation}
    (quiet : ∀ key, next.ticket? key = none) :
    Performed s (s.advance backend (.resume call answer next)) := by
  have performed := performed_resume (s.record (.returned call answer)) answer next quiet
  exact { performed with moves := .head (.record s rfl) performed.moves }

variable (backend) in
theorem script_cases (s : Session σ) (commands : List Command) :
    Performed s (s.advance backend (.script commands)) ∨
      Reopened s (s.advance backend (.script commands)).1 ∧
        ∀ task ∈ (s.advance backend (.script commands)).2, task.continuation? = none := by
  cases commands with
  | nil => exact .inl (Performed.idle s)
  | cons command rest =>
    rcases asked_cases backend (.nested command.word) s command with
      performed | ⟨reopened, outcome, tasks⟩
    · exact .inl (performed.before (fun _ => rfl) rfl)
    · exact .inr ⟨reopened, by simp [advance, tasks]⟩

variable (backend) in
theorem performed_round (s : Session σ) (event : ChangeEvent) (observers : List Observer) :
    Performed s (s.advance backend (.round event observers)) := by
  cases observers with
  | nil => exact Performed.idle s
  | cons observer rest => exact (performed_notify event s observer).before (fun _ => rfl) rfl

variable (backend) in
theorem performed_conclude (s : Session σ) (context : Context) (outcome : Outcome) :
    Performed s (s.advance backend (.conclude context outcome)) := by
  have ends : Move s (s.record (.finished context outcome)) := .record s rfl
  cases context with
  | nested word => exact .leave (.single ends) rfl rfl (by simp)
  | top =>
    have shows : Alike (s.record (.finished .top outcome))
        { s.record (.finished .top outcome) with outcome } := ⟨rfl, rfl, rfl, rfl, rfl, rfl, rfl⟩
    exact .leave (.head ends shows.moves) rfl rfl (by simp)

/-- What advancing a task can be. -/
inductive Advanced (backend : Backend σ) (s : Session σ) : Task → Progress σ → Prop
  | performed {task : Task} {p : Progress σ} (quiet : ∀ key, task.ticket? key = none)
    (performed : Performed s p) : Advanced backend s task p
  | reopened {task : Task} {p : Progress σ} (quiet : ∀ key, task.ticket? key = none)
    (reopened : Reopened s p.1) (idle : ∀ task ∈ p.2, task.continuation? = none) :
    Advanced backend s task p
  | fetch (key : Nat) : Advanced backend s (.fetch key) (s.fetch key)
  | send (call : Call) (next : Continuation) :
    Advanced backend s (.send call next) (s.advance backend (.send call next))
  | answer (call : Call) (next : Continuation) :
    Advanced backend s (.answer call next) (s.advance backend (.answer call next))
  | deliver (call : Call) (answer : Answer) (key ticket : Nat) :
    Advanced backend s (.resume call answer (.deliver key ticket))
      ((s.record (.returned call answer)).deliver key ticket answer.toRows)

variable (backend) in
theorem advanced (s : Session σ) (task : Task) : Advanced backend s task (s.advance backend task) := by
  cases task with
  | script commands =>
    rcases script_cases backend s commands with performed | ⟨reopened, idle⟩
    · exact .performed (fun _ => rfl) performed
    · exact .reopened (fun _ => rfl) reopened idle
  | round event observers =>
    exact .performed (fun _ => rfl) (performed_round backend s event observers)
  | fetch key => exact .fetch key
  | send call next => exact .send call next
  | answer call next => exact .answer call next
  | resume call answer next =>
    cases next with
    | deliver key ticket => exact .deliver call answer key ticket
    | conclude reading context =>
      exact .performed (fun _ => rfl) (performed_returned backend s call answer fun _ => rfl)
    | publish event reading context =>
      exact .performed (fun _ => rfl) (performed_returned backend s call answer fun _ => rfl)
    | addColumns table columns context =>
      exact .performed (fun _ => rfl) (performed_returned backend s call answer fun _ => rfl)
  | keepQuery label key context => exact .performed (fun _ => rfl) (performed_keepQuery s label key context)
  | keepWatch label key context => exact .performed (fun _ => rfl) (performed_keepWatch s label key context)
  | conclude context outcome =>
    exact .performed (fun _ => rfl) (performed_conclude backend s context outcome)

/-! ## The history of a run -/

theorem history_deliver (s : Session σ) (key ticket : Nat) (result : Except Error (List Row)) :
    s.history <:+ (s.deliver key ticket result).1.history := by
  cases delivered s key ticket result with
  | lost none done => simp [done]
  | accepted query active new calls done =>
    rw [done, calls.history]
    exact (List.suffix_cons _ _).trans (List.suffix_cons _ _)
  | discarded query late done =>
    rw [done]
    exact (List.suffix_cons _ _).trans (List.suffix_cons _ _)

theorem history_fetch (s : Session σ) (key : Nat) : s.history <:+ (s.fetch key).1.history := by
  have starts (ticket : Nat) : s.history <:+ (s.startFetch key ticket).history :=
    List.suffix_cons _ _
  cases fetched s key with
  | idle inactive done => simp [done]
  | refused query active invalid done =>
    rw [done]
    exact (starts _).trans (history_deliver _ key _ _)
  | started query active valid done =>
    rw [done]
    exact starts _

theorem history_answer (call : Call) (s : Session σ) :
    (s.answer backend call).2.history = s.history := by
  obtain ⟨storage, replies, same⟩ := answered backend call s
  rw [same]

theorem Reopened.history (reopened : Reopened s s') : s.history <:+ s'.history := by
  obtain ⟨between, moves, dropped⟩ := reopened.moved
  exact dropped.history ▸ moves.history

theorem Advanced.history {task : Task} (advanced : Advanced backend s task p) :
    s.history <:+ p.1.history := by
  cases advanced with
  | performed quiet performed => exact performed.moves.history
  | reopened quiet reopened idle => exact reopened.history
  | fetch key => exact history_fetch s key
  | send call next =>
    simp only [advance, (alike_takeHook _ _ _).history]
    exact List.suffix_cons _ _
  | answer call next => simp only [advance, (alike_takeHook _ _ _).history, history_answer, List.suffix_refl]
  | deliver call answer key ticket =>
    have returned : s.history <:+ (s.record (.returned call answer)).history := List.suffix_cons _ _
    exact returned.trans (history_deliver _ key ticket _)

/-- What happened stays in the history. -/
theorem Step.history {p p' : Progress σ} (step : Step backend p p') : p.1.history <:+ p'.1.history := by
  cases step with
  | advance s task rest => exact (advanced backend s task).history
  | tick s tasks now => exact List.suffix_refl _
  | give s command =>
    rcases asked_cases backend .top s command with performed | ⟨reopened, -⟩
    · exact performed.moves.history
    · exact reopened.history

/-! ## What follows the calls of a run -/

theorem continuation?_deliver (s : Session σ) (key ticket : Nat) (result : Except Error (List Row)) :
    ∀ task ∈ (s.deliver key ticket result).2, task.continuation? = none := by
  cases delivered s key ticket result with
  | lost none done => simp [done]
  | accepted query active new calls done => simp [done]
  | discarded query late done => simp [done]

theorem sends_fetch (s : Session σ) (key : Nat) : ∀ task ∈ (s.fetch key).2, ∀ call next,
    task.continuation? = some (call, next) → task = .send call next ∧ next.Fits call := by
  intro task member call next waits
  cases fetched s key with
  | idle inactive done =>
    rw [done] at member
    cases member
  | refused query active invalid done =>
    rw [done] at member
    rw [continuation?_deliver _ key _ _ task member] at waits
    cases waits
  | started query active valid done =>
    obtain ⟨-, -, predicate, -, -, rfl⟩ := Request.select_eq_ok.mp valid
    rw [done] at member
    rw [List.mem_singleton.mp member] at waits
    cases waits
    exact ⟨List.mem_singleton.mp member, rfl⟩

/-- What follows the calls of a configuration fits them, and those that are not to be sent yet were
sent. -/
def Fitting (p : Progress σ) : Prop :=
  ∀ task ∈ p.2, ∀ call next, task.continuation? = some (call, next) →
    next.Fits call ∧ (task = .send call next ∨ .sent call ∈ p.1.history)

theorem Advanced.fitting {task : Task} (advanced : Advanced backend s task p)
    (fits : ∀ call next, task.continuation? = some (call, next) →
      next.Fits call ∧ (task = .send call next ∨ .sent call ∈ s.history)) : Fitting p := by
  cases advanced with
  | performed quiet performed =>
    intro other member call next waits
    obtain ⟨sends, fits⟩ := performed.sends other member call next waits
    exact ⟨fits, .inl sends⟩
  | reopened quiet reopened idle =>
    intro other member call next waits
    rw [idle other member] at waits
    cases waits
  | fetch key =>
    intro other member call next waits
    obtain ⟨sends, fits⟩ := sends_fetch s key other member call next waits
    exact ⟨fits, .inl sends⟩
  | send call next =>
    intro other member call' next' waits
    simp only [advance, List.mem_cons, List.not_mem_nil, or_false] at member
    rcases member with rfl | rfl
    · cases waits
    · cases waits
      have sent : .sent call ∈ (s.advance backend (.send call next)).1.history := by
        simp only [advance, (alike_takeHook _ _ _).history]
        exact List.mem_cons_self ..
      exact ⟨(fits call next rfl).1, .inr sent⟩
  | answer call next =>
    intro other member call' next' waits
    simp only [advance, List.mem_cons, List.not_mem_nil, or_false] at member
    rcases member with rfl | rfl
    · cases waits
    · cases waits
      obtain ⟨fits, sends | sent⟩ := fits call next rfl
      · cases sends
      · refine ⟨fits, .inr ?_⟩
        simp only [advance, (alike_takeHook _ _ _).history, history_answer]
        exact sent
  | deliver call answer key ticket =>
    intro other member call' next' waits
    rw [continuation?_deliver _ key ticket _ other member] at waits
    cases waits

theorem Step.fitting {p p' : Progress σ} (step : Step backend p p') (fits : Fitting p) :
    Fitting p' := by
  cases step with
  | advance s task rest =>
    intro other member call next waits
    rcases List.mem_append.mp member with member | member
    · exact (advanced backend s task).fitting (fits task (List.mem_cons_self ..)) other member call
        next waits
    · obtain ⟨fits, sent⟩ := fits other (List.mem_cons_of_mem _ member) call next waits
      exact ⟨fits, sent.imp_right fun sent => (advanced backend s task).history.subset sent⟩
  | tick s tasks now => exact fits
  | give s command =>
    intro other member call next waits
    rcases asked_cases backend .top s command with performed | ⟨-, outcome, tasks⟩
    · obtain ⟨sends, fits⟩ := performed.sends other member call next waits
      exact ⟨fits, .inl sends⟩
    · rw [tasks] at member
      rw [List.mem_singleton.mp member] at waits
      cases waits

theorem Reachable.fitting (reachable : Reachable backend p) : Fitting p := by
  induction reachable with
  | start storage scripted now => simp [Fitting]
  | step _ step ih => exact step.fitting ih

end Session

end LiveTable
