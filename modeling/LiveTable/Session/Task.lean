import LiveTable.Session.State

/-!
# Tasks

Calls nest: a statement of the store publishes an event, an observer runs commands, and a command
may send the next statement. What is still to be done is a list of tasks, the first of which is
done next; whatever a task sets off comes in front of the tasks that wait for it. Performing a
command changes the session at once as far as no callback is needed, and leaves the rest as tasks.
-/

namespace LiveTable

/-- How a command reads the answer to its call. -/
inductive Reading
  | done
  | inserted
  | count
  | tables
  | columns
  /-- Whether the columns of the table cover those that are expected. -/
  | covers (expected : List String)
  | rows
  deriving DecidableEq

/-- The outcome that an answer is read as. -/
def Reading.outcome : Reading → Answer → Except Error Outcome
  | .done, answer => answer.toDone.map fun _ => .done
  | .inserted, answer => answer.toChanged.map fun (id, changes) => .inserted id changes
  | .count, answer => answer.toChanged.map fun (_, changes) => .count changes
  | .tables, answer => answer.toRows.bind fun rows => (rows.mapM TableInfo.ofRow).map .tables
  | .columns, answer => answer.toRows.bind fun rows => (rows.mapM ColumnInfo.ofRow).map .columns
  | .covers expected, answer =>
    answer.toRows.bind fun rows =>
      (rows.mapM ColumnInfo.ofRow).map fun found => .flag (coversColumns found expected)
  | .rows, answer => answer.toRows.map .rows

/-- What follows when a call returns. -/
inductive Continuation
  /-- End a command with what the answer says. -/
  | conclude (reading : Reading) (context : Context)
  /-- Publish an event if the call succeeded, then end a command. -/
  | publish (event : ChangeEvent) (reading : Reading) (context : Context)
  /-- Add the columns that are left, if the call succeeded. -/
  | addColumns (table : String) (columns : List (String × ColumnDef)) (context : Context)
  /-- Deliver the result of a fetch, unless it comes too late. -/
  | deliver (query ticket : Nat)

/-- Something that is still to be done. -/
inductive Task
  /-- Run commands of a callback or a hook. -/
  | script (commands : List Command)
  /-- Call the remaining observers of a published event. -/
  | round (event : ChangeEvent) (observers : List Observer)
  /-- Run a query's selection, unless it is disposed. -/
  | fetch (query : Nat)
  /-- Send a call to the storage. -/
  | send (call : Call) (next : Continuation)
  /-- Let the storage answer a call that was sent. -/
  | answer (call : Call) (next : Continuation)
  /-- Come back from a call that was answered. -/
  | resume (call : Call) (answer : Answer) (next : Continuation)
  /-- Keep a query that was opened under its label and end the command. -/
  | keepQuery (label : String) (query : Nat) (context : Context)
  /-- Keep a watch that was opened under its label and end the command. -/
  | keepWatch (label : String) (watch : Nat) (context : Context)
  /-- End a command. -/
  | conclude (context : Context) (outcome : Outcome)

namespace Session

variable {σ : Type} (backend : Backend σ)

/-- What performing a command leads to: the session, and what is left to do. -/
abbrev Progress (σ : Type) := Session σ × List Task

/-- A command that ends with a failure. -/
def refuse (s : Session σ) (context : Context) (f : Failure) : Progress σ :=
  (s, [.conclude context (.failed f)])

/-- Publish an event: the observers registered now will be called, one after the other. -/
def publish (s : Session σ) (event : ChangeEvent) : Session σ × Task :=
  let observers := s.bus.observers event.table
  (s.record (.published event observers), .round event observers)

/-- Perform a request whose arguments are at hand: send its call, unless a check fails. -/
def request (s : Session σ) (context : Context) (call : Except Error Call)
    (next : Continuation) : Progress σ :=
  match call with
  | .ok call => (s, [.send call next])
  | .error e => s.refuse context (.store e)

/-- Add columns one statement at a time; the first column that fails ends the work. -/
def addColumns (s : Session σ) (table : String) (context : Context) :
    List (String × ColumnDef) → Progress σ
  | [] => (s, [.conclude context .done])
  | (column, definition) :: rest =>
    s.request context (Request.addColumn table column definition)
      (.addColumns table rest context)

/-- Perform a command whose arguments must be read first. -/
def withArgument {α : Type} (s : Session σ) (context : Context) (argument : Except Failure α)
    (next : α → Progress σ) : Progress σ :=
  match argument with
  | .ok a => next a
  | .error f => s.refuse context f

/-- Perform a command on what is kept under a label. -/
def withHandle {α : Type} (s : Session σ) (context : Context) (handle : Option α)
    (next : α → Progress σ) : Progress σ :=
  match handle with
  | some a => next a
  | none => s.refuse context .noHandle

/-- A command that ends at once. -/
def ended (s : Session σ) (context : Context) (outcome : Outcome) : Progress σ :=
  (s, [.conclude context outcome])

/-- The arguments of a selection, read: the filter first, then the order. -/
def readSpec (table : String) (columns : List String) (filter : Given Filter)
    (order : Given SortOrder) : Except Failure QuerySpec := do
  let filter ← filter.filter
  let order ← order.order
  .ok ⟨table, columns, filter, order⟩

/-- The row that a published event carries, read. -/
def readEventRow : Option (Given Row) → Except Failure (Option Row)
  | none => .ok none
  | some given => given.row.map some

/-- The state of a query, as its handle shows it. -/
def viewQuery (q : Query) : QueryView := ⟨q.spec, q.rows, q.active, q.lastError⟩

/-- The parameters of a statement given by its text; one sent for its effect alone has none. -/
def rawParams (kind : CallKind) (params : List Value) : List Value :=
  if kind = .execute then [] else params

/-- How the answer to a statement given by its text is read. -/
def rawReading : CallKind → Reading
  | .execute => .done
  | .run => .inserted
  | .query => .rows

/-- What the bus says of itself: its tables and the number of their observers. -/
def busText (bus : Bus Observer) : String :=
  "ChangeBus \x7b observers: \x7b"
    ++ ", ".intercalate (bus.tables.entries.map fun (table, list) =>
      Text.quoted table ++ ": " ++ toString list.length)
    ++ "\x7d \x7d"

/-- Perform a command. -/
def perform (context : Context) (s : Session σ) : Command → Progress σ
  | .createTable table columns =>
    s.withArgument context columns.read fun spec =>
    s.request context (Request.createTable table spec)
      (.publish ⟨table, .createTable, none⟩ .done context)
  | .addColumns table columns =>
    s.withArgument context columns.read fun spec =>
    match checkName table with
    | .error e => s.refuse context (.store e)
    | .ok _ => s.addColumns table context spec.entries
  | .createIndex table column =>
    s.request context (Request.createIndex table column) (.conclude .done context)
  | .dropTable table =>
    match Request.dropTable table with
    | .error e => s.refuse context (.store e)
    | .ok call =>
      let (s, round) := s.publish ⟨table, .dropTable, none⟩
      (s, [round, .send call (.conclude .done context)])
  | .tables => (s, [.send Request.tableList (.conclude .tables context)])
  | .schema table => s.request context (Request.tableInfo table) (.conclude .columns context)
  | .validateSchema table columns =>
    if columns.isEmpty then s.refuse context (.store (.emptySchema table))
    else s.request context (Request.tableInfo table) (.conclude (.covers columns) context)
  | .insert table row =>
    s.withArgument context row.row fun row =>
    s.request context (Request.insert s.now table row)
      (.publish ⟨table, .insert, none⟩ .inserted context)
  | .update table filter row =>
    s.withArgument context filter.filter fun filter =>
    s.withArgument context row.row fun row =>
    s.request context (Request.update table filter row)
      (.publish ⟨table, .update, some row⟩ .count context)
  | .delete table filter =>
    s.withArgument context filter.filter fun filter =>
    s.request context (Request.delete table filter)
      (.publish ⟨table, .delete, none⟩ .count context)
  | .select table columns filter order =>
    s.withArgument context (readSpec table columns filter order) fun spec =>
    s.request context (Request.select spec) (.conclude .rows context)
  | .raw kind text params =>
    (s, [.send ⟨kind, .verbatim text, rawParams kind params⟩ (.conclude (rawReading kind) context)])
  | .reply replies => { s with replies := s.replies ++ replies }.ended context .done
  | .hook kind moment script =>
    { s with hooks := s.hooks ++ [Hook.mk kind moment script] }.ended context .done
  | .reopen =>
    let s := s.dropAll
    match backend.reopen s.storage with
    | .ok storage => { s with storage }.ended context .done
    | .error e => s.refuse context (.opening e)
  | .subscribe table label plan => (s.addListener table label plan).ended context (.text table)
  | .unsubscribe label =>
    s.withHandle context (s.subscriptions.get? label) fun subscription =>
    (s.dropListener label subscription).ended context .done
  | .publish table kind row =>
    s.withArgument context (readEventRow row) fun row =>
    let (s, round) := s.publish ⟨table, kind, row⟩
    (s, [round, .conclude context .done])
  | .count table => s.ended context (.count (s.bus.count table))
  | .describeBus => s.ended context (.text (busText s.bus))
  | .openQuery table columns filter order label plan =>
    s.withArgument context (readSpec table columns filter order) fun spec =>
    let (key, s) := s.addQuery spec label plan
    (s, [.fetch key, .keepQuery label key context])
  | .refresh label =>
    s.withHandle context (s.queryHandles.get? label) fun key =>
    (s, [.fetch key, .conclude context .done])
  | .disposeQuery label =>
    s.withHandle context (s.queryHandles.get? label) fun key =>
    (s.disposeQuery key).ended context .done
  | .dropQuery label =>
    s.withHandle context (s.queryHandles.get? label) fun key =>
    (s.dropQuery label key).ended context .done
  | .queryState label =>
    s.withHandle context ((s.queryHandles.get? label).bind fun key => s.queries[key]?) fun q =>
    s.ended context (.query (viewQuery q))
  | .openWatch table label plan =>
    let (key, s) := s.addWatch table label plan
    let (script, s) := (s.record (.notified key label)).watchScript key
    (s, [.script script, .keepWatch label key context])
  | .watchState label =>
    s.withHandle context ((s.watchHandles.get? label).bind fun key => s.watches[key]?) fun w =>
    s.ended context (.watch w.table w.active)
  | .disposeWatch label =>
    s.withHandle context (s.watchHandles.get? label) fun key =>
    (s.disposeWatch key).ended context .done
  | .dropWatch label =>
    s.withHandle context (s.watchHandles.get? label) fun key =>
    (s.dropWatch label key).ended context .done
  | .unknown _ => s.refuse context .unknownCommand

/-- Begin a command. -/
def ask (context : Context) (s : Session σ) (command : Command) : Progress σ :=
  (s.record (.asked command)).perform backend context command

end Session

end LiveTable
