import LiveTable.Bus
import LiveTable.Catalog
import LiveTable.Request
import LiveTable.Json.Reader
import LiveTable.Storage

/-!
# Commands and outcomes of a session

What can be asked of a session: the requests to the store, subscriptions, reactive queries and
watches. What an observer does when it is called is data: a plan with one script of commands for
each of its calls. Since the plan is finite, so is every run, however deep the calls nest.
-/

namespace LiveTable

/-- When a hook runs: before the storage answers a call, or between its answer and its return. -/
inductive Moment
  | before
  | after
  deriving DecidableEq

/-- An argument, given as a value or as JSON text. -/
inductive Given (α : Type)
  | value (a : α)
  | json (text : String)

/-- Columns with their declarations, given as definitions or as pairs of texts. -/
inductive Columns
  | spec (spec : ColumnSpec)
  | pairs (pairs : List String)

instance : Coe (List String) Columns := ⟨.pairs⟩

/-- A request to a session. -/
inductive Command
  | createTable (table : String) (columns : Columns)
  | addColumns (table : String) (columns : Columns)
  | createIndex (table column : String)
  | dropTable (table : String)
  | tables
  | schema (table : String)
  | validateSchema (table : String) (columns : List String)
  | insert (table : String) (row : Given Row)
  | update (table : String) (filter : Given Filter) (row : Given Row)
  | delete (table : String) (filter : Given Filter)
  | select (table : String) (columns : List String) (filter : Given Filter)
      (order : Given SortOrder)
  /-- A statement given by its text, straight to the storage. -/
  | raw (kind : CallKind) (text : String) (params : List Value)
  /-- Queue replies in front of the storage. -/
  | reply (replies : List Reply)
  /-- Queue a script that the storage runs inside the next call of a kind. -/
  | hook (kind : CallKind) (moment : Moment) (script : List Command)
  | reopen
  | subscribe (table label : String) (plan : List (List Command))
  | unsubscribe (label : String)
  | publish (table : String) (kind : ChangeKind) (row : Option (Given Row))
  | count (table : String)
  | describeBus
  | openQuery (table : String) (columns : List String) (filter : Given Filter)
      (order : Given SortOrder) (label : String) (plan : List (List Command))
  | refresh (label : String)
  | disposeQuery (label : String)
  | dropQuery (label : String)
  | queryState (label : String)
  | openWatch (table label : String) (plan : List (List Command))
  | watchState (label : String)
  | disposeWatch (label : String)
  | dropWatch (label : String)
  /-- A word that names no command. -/
  | unknown (word : String)

instance : Inhabited Command := ⟨.tables⟩

/-- Commands in the order in which they run. -/
abbrev Script := List Command

/-- The script of each call of an observer, from the first call on. After the last script an
observer does nothing. -/
abbrev Plan := List Script

/-- The plan that runs a script on `times` calls after `skip` calls. -/
def Plan.window (skip times : Nat) (script : Script) : Plan :=
  List.replicate skip [] ++ List.replicate times script

/-- The script of the next call, and the plan of the calls after it. -/
def Plan.next : Plan → Script × Plan
  | [] => ([], [])
  | script :: rest => (script, rest)

/-- The word that names a command. -/
def Command.word : Command → String
  | .createTable .. => "create_table"
  | .addColumns .. => "add_columns"
  | .createIndex .. => "create_index"
  | .dropTable .. => "drop_table"
  | .tables => "tables"
  | .schema .. => "schema"
  | .validateSchema .. => "validate_schema"
  | .insert .. => "insert"
  | .update .. => "update"
  | .delete .. => "delete"
  | .select .. => "select"
  | .raw .execute .. => "raw_execute"
  | .raw .run .. => "raw_run"
  | .raw .query .. => "raw_query"
  | .reply .. => "reply"
  | .hook .. => "hook"
  | .reopen => "reopen"
  | .subscribe .. => "subscribe"
  | .unsubscribe .. => "unsubscribe"
  | .publish .. => "publish"
  | .count .. => "count"
  | .describeBus => "bus_debug"
  | .openQuery .. => "open_query"
  | .refresh .. => "refresh"
  | .disposeQuery .. => "dispose_query"
  | .dropQuery .. => "drop_query"
  | .queryState .. => "query_state"
  | .openWatch .. => "open_watch"
  | .watchState .. => "watch_state"
  | .disposeWatch .. => "dispose_watch"
  | .dropWatch .. => "drop_watch"
  | .unknown word => word

/-! ## Weights

Every command of a script is run at most once, so the commands still to be run bound a run. -/

mutual

/-- The number of commands in a command, itself included, and of calls in its plans. A change of a
table weighs one more, for the event that it publishes after its statement. -/
def Command.weight : Command → Nat
  | .createTable .. => 2
  | .insert .. => 2
  | .update .. => 2
  | .delete .. => 2
  | .hook _ _ script => 2 + scriptWeight script
  | .subscribe _ _ plan => 1 + planWeight plan
  | .openQuery _ _ _ _ _ plan => 1 + planWeight plan
  | .openWatch _ _ plan => 1 + planWeight plan
  | _ => 1

/-- The weight of the commands of a script. -/
def scriptWeight : List Command → Nat
  | [] => 0
  | command :: rest => command.weight + scriptWeight rest

/-- The weight of the scripts of a plan, each with one for its call. -/
def planWeight : List (List Command) → Nat
  | [] => 0
  | script :: rest => 1 + scriptWeight script + planWeight rest

end

theorem planWeight_next (plan : Plan) :
    scriptWeight plan.next.1 + planWeight plan.next.2 ≤ planWeight plan := by
  cases plan <;> simp [Plan.next, planWeight, scriptWeight]

theorem Command.one_le_weight (c : Command) : 1 ≤ c.weight := by
  cases c
  case hook kind moment script =>
    rw [Command.weight]
    omega
  all_goals simp [Command.weight]

/-! ## Outcomes -/

/-- Why a command has no result. -/
inductive Failure
  | store (e : Error)
  | pair (e : PairError)
  /-- A text that is not JSON. -/
  | json (text : String)
  /-- A JSON document that is not a row. -/
  | notARow
  /-- A label under which nothing is kept. -/
  | noHandle
  | opening (e : OpenError)
  | unknownCommand
  deriving DecidableEq

/-- What a reactive query shows. -/
structure QueryView where
  spec : QuerySpec
  rows : List Row
  active : Bool
  lastError : Option Error
  deriving DecidableEq

/-- The result of a command. -/
inductive Outcome
  | done
  | tables (tables : List TableInfo)
  | columns (columns : List ColumnInfo)
  | flag (b : Bool)
  | inserted (id : Int64) (changes : Nat)
  | count (n : Nat)
  | rows (rows : List Row)
  | text (s : String)
  | query (view : QueryView)
  | watch (table : String) (active : Bool)
  | failed (f : Failure)
  deriving DecidableEq

/-- The outcome of a computation that can fail. -/
def Outcome.ofExcept {α : Type} (f : α → Outcome) : Except Error α → Outcome
  | .ok a => f a
  | .error e => .failed (.store e)

/-! ## Arguments -/

/-- The document of a JSON text. -/
def readJson (text : String) : Except Failure Json :=
  match Json.read? text with
  | some json => .ok json
  | none => .error (.json text)

/-- The row that is given. -/
def Given.row : Given Row → Except Failure Row
  | .value row => .ok row
  | .json text => do
    match Row.ofJson? (← readJson text) with
    | some row => .ok row
    | none => .error .notARow

/-- The columns that are given. -/
def Columns.read : Columns → Except Failure ColumnSpec
  | .spec s => .ok s
  | .pairs texts =>
    match ColumnSpec.parsePairs texts with
    | .ok s => .ok s
    | .error e => .error (.pair e)

/-- An error of the store as a failure. -/
def storeError {α : Type} : Except Error α → Except Failure α
  | .ok a => .ok a
  | .error e => .error (.store e)

/-- The filter that is given. -/
def Given.filter : Given Filter → Except Failure Filter
  | .value f => .ok f
  | .json text => do storeError (Filter.ofJson (← readJson text))

/-- The sort order that is given. -/
def Given.order : Given SortOrder → Except Failure SortOrder
  | .value s => .ok s
  | .json text => do storeError (SortOrder.ofJson (← readJson text))

end LiveTable
