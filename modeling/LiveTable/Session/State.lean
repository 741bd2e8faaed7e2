import LiveTable.Session.Command

/-!
# The state of a session

A session is a store in front of a storage, with the observers of its bus. Observers, reactive
queries and watches live in lists that only grow; a key is a place in such a list. Handles name
them by labels. What happens is kept as a history, the latest first.
-/

namespace LiveTable

/-- Who is registered on the bus, by key. -/
inductive Observer
  | listener (key : Nat)
  | query (key : Nat)
  | watch (key : Nat)
  deriving DecidableEq

/-- A subscriber of the bus. -/
structure Listener where
  label : String
  plan : Plan

/-- A reactive query. -/
structure Query where
  label : String
  spec : QuerySpec
  plan : Plan
  subscription : Subscription
  active : Bool
  /-- The rows of the last fetch that succeeded. -/
  rows : List Row
  /-- The error of the last fetch, if it failed. -/
  lastError : Option Error
  /-- The number of fetches that were started; a fetch takes the next number as its ticket. -/
  started : Nat
  /-- The ticket of the last fetch that was delivered. -/
  delivered : Nat

/-- The query after it took the result of a fetch. An error leaves the rows as they are. -/
def Query.take (q : Query) (ticket : Nat) : Except Error (List Row) → Query
  | .ok rows => { q with delivered := ticket, rows := rows, lastError := none }
  | .error e => { q with delivered := ticket, lastError := some e }

@[simp] theorem Query.started_take (q : Query) (ticket : Nat) (result : Except Error (List Row)) :
    (q.take ticket result).started = q.started := by cases result <;> rfl

@[simp] theorem Query.delivered_take (q : Query) (ticket : Nat) (result : Except Error (List Row)) :
    (q.take ticket result).delivered = ticket := by cases result <;> rfl

@[simp] theorem Query.active_take (q : Query) (ticket : Nat) (result : Except Error (List Row)) :
    (q.take ticket result).active = q.active := by cases result <;> rfl

@[simp] theorem Query.label_take (q : Query) (ticket : Nat) (result : Except Error (List Row)) :
    (q.take ticket result).label = q.label := by cases result <;> rfl

@[simp] theorem Query.spec_take (q : Query) (ticket : Nat) (result : Except Error (List Row)) :
    (q.take ticket result).spec = q.spec := by cases result <;> rfl

@[simp] theorem Query.subscription_take (q : Query) (ticket : Nat)
    (result : Except Error (List Row)) : (q.take ticket result).subscription = q.subscription := by
  cases result <;> rfl

/-- A watch of a table. -/
structure Watch where
  label : String
  table : String
  plan : Plan
  subscription : Subscription
  active : Bool

/-- A script that the storage runs inside a call. -/
structure Hook where
  kind : CallKind
  moment : Moment
  script : Script

/-- The script of the first hook for a moment of a call, and the hooks that are left. -/
def Hook.take (kind : CallKind) (moment : Moment) : List Hook → Script × List Hook
  | [] => ([], [])
  | hook :: rest =>
    if hook.kind = kind ∧ hook.moment = moment then (hook.script, rest)
    else ((take kind moment rest).1, hook :: (take kind moment rest).2)

/-- Who asked for a command. -/
inductive Context
  /-- The caller of the session. -/
  | top
  /-- A callback or a hook; the word names the command. -/
  | nested (word : String)
  deriving DecidableEq

/-- What happens in a session. -/
inductive Happening
  /-- A command was begun. -/
  | asked (command : Command)
  /-- A call was sent to the storage. -/
  | sent (call : Call)
  /-- A call came back from the storage. -/
  | returned (call : Call) (answer : Answer)
  /-- An event was published to the observers that are registered for its table. -/
  | published (event : ChangeEvent) (observers : List Observer)
  /-- A subscriber was called. -/
  | observed (key : Nat) (label : String) (event : ChangeEvent)
  /-- A fetch was started. -/
  | fetched (query ticket : Nat)
  /-- The result of a fetch arrived. -/
  | arrived (query ticket : Nat) (result : Except Error (List Row))
  /-- A fetch came too late and its result was dropped. -/
  | discarded (query ticket : Nat)
  /-- A reactive query delivered rows. -/
  | updated (query ticket : Nat) (label : String) (rows : List Row)
  /-- A reactive query delivered an error. -/
  | failed (query ticket : Nat) (label : String) (e : Error)
  /-- A watch called its listener. -/
  | notified (watch : Nat) (label : String)
  | queryDisposed (query : Nat)
  | watchDisposed (watch : Nat)
  /-- A command ended. -/
  | finished (context : Context) (outcome : Outcome)

/-- The callback of a query that the result of a fetch leads to. -/
def Happening.callback (query ticket : Nat) (label : String) : Except Error (List Row) → Happening
  | .ok rows => .updated query ticket label rows
  | .error e => .failed query ticket label e

/-- A store, its storage, and everything that observes it. -/
structure Session (σ : Type) where
  storage : σ
  /-- Replies and hooks stand in front of the storage. -/
  scripted : Bool
  replies : List Reply
  /-- The scripts that run inside the coming calls. -/
  hooks : List Hook
  bus : Bus Observer
  listeners : List Listener
  queries : List Query
  watches : List Watch
  subscriptions : Ordered Subscription
  queryHandles : Ordered Nat
  watchHandles : Ordered Nat
  /-- The time in milliseconds. -/
  now : Int64
  history : List Happening
  /-- The result of the last command that the caller gave. -/
  outcome : Outcome

namespace Session

variable {σ : Type}

/-- A session without observers. -/
def start (storage : σ) (scripted : Bool) (now : Int64) : Session σ where
  storage
  scripted
  replies := []
  hooks := []
  bus := .empty
  listeners := []
  queries := []
  watches := []
  subscriptions := .empty
  queryHandles := .empty
  watchHandles := .empty
  now
  history := []
  outcome := .done

/-- The session after something happened. -/
def record (s : Session σ) (h : Happening) : Session σ := { s with history := h :: s.history }

/-- Change the query of a key. -/
def setQuery (s : Session σ) (key : Nat) (f : Query → Query) : Session σ :=
  { s with queries := s.queries.modify key f }

/-- Change the watch of a key. -/
def setWatch (s : Session σ) (key : Nat) (f : Watch → Watch) : Session σ :=
  { s with watches := s.watches.modify key f }

/-! ## The storage -/

/-- Let the storage answer a call, through the first prepared reply if there are any. -/
def answer (backend : Backend σ) (call : Call) (s : Session σ) : Answer × Session σ :=
  let (reply, replies) : Reply × List Reply :=
    match s.scripted, s.replies with
    | true, reply :: rest => (reply, rest)
    | _, rest => (.normal, rest)
  let s := { s with replies }
  match reply.answer? call.kind with
  | some answer => (answer, s)
  | none =>
    let (answer, storage) := backend.answer call s.storage
    (answer, { s with storage })

/-- The script that the storage runs at a moment of the current call. -/
def takeHook (s : Session σ) (kind : CallKind) (moment : Moment) : Script × Session σ :=
  if s.scripted then
    ((Hook.take kind moment s.hooks).1, { s with hooks := (Hook.take kind moment s.hooks).2 })
  else ([], s)

/-! ## Callbacks -/

/-- The script of the coming call of a subscriber. -/
def listenerScript (s : Session σ) (key : Nat) : Script × Session σ :=
  match s.listeners[key]? with
  | none => ([], s)
  | some l =>
    (l.plan.next.1, { s with listeners := s.listeners.set key { l with plan := l.plan.next.2 } })

/-- The script of the coming callback of a query. -/
def queryScript (s : Session σ) (key : Nat) : Script × Session σ :=
  match s.queries[key]? with
  | none => ([], s)
  | some q =>
    (q.plan.next.1, { s with queries := s.queries.set key { q with plan := q.plan.next.2 } })

/-- The script of the coming call of a watch's listener. -/
def watchScript (s : Session σ) (key : Nat) : Script × Session σ :=
  match s.watches[key]? with
  | none => ([], s)
  | some w =>
    (w.plan.next.1, { s with watches := s.watches.set key { w with plan := w.plan.next.2 } })

/-! ## Fetches -/

/-- A fetch of a query takes its ticket. -/
def startFetch (s : Session σ) (key ticket : Nat) : Session σ :=
  (s.setQuery key fun q => { q with started := ticket }).record (.fetched key ticket)

/-- A query takes the result of a fetch and calls back. -/
def takeResult (s : Session σ) (key ticket : Nat) (label : String)
    (result : Except Error (List Row)) : Session σ :=
  (s.setQuery key (·.take ticket result)).record (.callback key ticket label result)

/-! ## Disposal -/

/-- Dispose a query: it leaves the bus and delivers nothing any more. -/
def disposeQuery (s : Session σ) (key : Nat) : Session σ :=
  match s.queries[key]? with
  | none => s
  | some q =>
    if q.active then
      let s := s.setQuery key fun q => { q with active := false }
      { s with bus := s.bus.unsubscribe q.subscription }.record (.queryDisposed key)
    else s

/-- Dispose a watch: it leaves the bus and its listener is not called any more. -/
def disposeWatch (s : Session σ) (key : Nat) : Session σ :=
  match s.watches[key]? with
  | none => s
  | some w =>
    if w.active then
      let s := s.setWatch key fun w => { w with active := false }
      { s with bus := s.bus.unsubscribe w.subscription }.record (.watchDisposed key)
    else s

/-- Keep a query under a label; a query that was kept there is disposed. -/
def keepQuery (s : Session σ) (label : String) (key : Nat) : Session σ :=
  let old := s.queryHandles.get? label
  let s := { s with queryHandles := s.queryHandles.insert label key }
  match old with
  | some key => s.disposeQuery key
  | none => s

/-- Keep a watch under a label; a watch that was kept there is disposed. -/
def keepWatch (s : Session σ) (label : String) (key : Nat) : Session σ :=
  let old := s.watchHandles.get? label
  let s := { s with watchHandles := s.watchHandles.insert label key }
  match old with
  | some key => s.disposeWatch key
  | none => s

/-- Forget a query's label and dispose the query. -/
def dropQuery (s : Session σ) (label : String) (key : Nat) : Session σ :=
  { s with queryHandles := s.queryHandles.erase label }.disposeQuery key

/-- Forget a watch's label and dispose the watch. -/
def dropWatch (s : Session σ) (label : String) (key : Nat) : Session σ :=
  { s with watchHandles := s.watchHandles.erase label }.disposeWatch key

/-- Drop all handles and everything that is registered. -/
def dropAll (s : Session σ) : Session σ :=
  let s := (s.queryHandles.values.foldl disposeQuery s)
  let s := (s.watchHandles.values.foldl disposeWatch s)
  { s with
    bus := s.bus.clear
    subscriptions := .empty
    queryHandles := .empty
    watchHandles := .empty }

/-! ## Opening -/

/-- Register a subscriber. -/
def addListener (s : Session σ) (table label : String) (plan : Plan) : Session σ :=
  let key := s.listeners.length
  let (subscription, bus) := s.bus.subscribe table (.listener key)
  { s with
    bus
    listeners := s.listeners ++ [⟨label, plan⟩]
    subscriptions := s.subscriptions.insert label subscription }

/-- Take a subscriber's registration back. -/
def dropListener (s : Session σ) (label : String) (subscription : Subscription) : Session σ :=
  { s with
    bus := s.bus.unsubscribe subscription
    subscriptions := s.subscriptions.erase label }

/-- Register a new query that has fetched nothing yet. -/
def addQuery (s : Session σ) (spec : QuerySpec) (label : String) (plan : Plan) :
    Nat × Session σ :=
  let key := s.queries.length
  let (subscription, bus) := s.bus.subscribe spec.table (.query key)
  let query : Query :=
    { label, spec, plan, subscription, active := true, rows := [], lastError := none
      started := 0, delivered := 0 }
  (key, { s with bus, queries := s.queries ++ [query] })

/-- Register a new watch. -/
def addWatch (s : Session σ) (table label : String) (plan : Plan) : Nat × Session σ :=
  let key := s.watches.length
  let (subscription, bus) := s.bus.subscribe table (.watch key)
  (key, { s with bus, watches := s.watches ++ [⟨label, table, plan, subscription, true⟩] })

end Session

end LiveTable
