import LiveTable.Session.Run

/-!
# Operations of the store

A command that concerns the store calls one of its operations, with arguments that were read. The four
operations on the rows of a table are requests. An operation is performed as the command is.
-/

namespace LiveTable

/-- A request for the rows of a table. -/
inductive Demand
  | insert (table : String) (row : Row)
  | update (table : String) (filter : Filter) (row : Row)
  | delete (table : String) (filter : Filter)
  | select (spec : QuerySpec)

namespace Demand

/-- The call of a request that is made at a time. -/
def call (now : Int64) : Demand → Except Error Call
  | insert table row => Request.insert now table row
  | update table filter row => Request.update table filter row
  | delete table filter => Request.delete table filter
  | select spec => Request.select spec

/-- The request as a command. -/
def command : Demand → Command
  | insert table row => .insert table (.value row)
  | update table filter row => .update table (.value filter) (.value row)
  | delete table filter => .delete table (.value filter)
  | select spec => .select spec.table spec.columns (.value spec.filter) (.value spec.order)

end Demand

/-- An operation of the store, with its arguments. -/
inductive Operation
  | createTable (table : String) (spec : ColumnSpec)
  | addColumns (table : String) (spec : ColumnSpec)
  | createIndex (table column : String)
  | dropTable (table : String)
  | tables
  | schema (table : String)
  | validateSchema (table : String) (columns : List String)
  | data (demand : Demand)

/-- The operation that a command calls, once its arguments are read. -/
inductive Command.Calls : Command → Operation → Prop
  | createTable {table : String} {columns : Columns} {spec : ColumnSpec}
    (read : columns.read = .ok spec) :
    Calls (.createTable table columns) (.createTable table spec)
  | addColumns {table : String} {columns : Columns} {spec : ColumnSpec}
    (read : columns.read = .ok spec) :
    Calls (.addColumns table columns) (.addColumns table spec)
  | createIndex (table column : String) :
    Calls (.createIndex table column) (.createIndex table column)
  | dropTable (table : String) : Calls (.dropTable table) (.dropTable table)
  | tables : Calls .tables .tables
  | schema (table : String) : Calls (.schema table) (.schema table)
  | validateSchema (table : String) (columns : List String) :
    Calls (.validateSchema table columns) (.validateSchema table columns)
  | insert {table : String} {given : Given Row} {row : Row} (read : given.row = .ok row) :
    Calls (.insert table given) (.data (.insert table row))
  | update {table : String} {selected : Given Filter} {filter : Filter} {given : Given Row} {row : Row}
    (selects : selected.filter = .ok filter) (read : given.row = .ok row) :
    Calls (.update table selected given) (.data (.update table filter row))
  | delete {table : String} {selected : Given Filter} {filter : Filter}
    (selects : selected.filter = .ok filter) :
    Calls (.delete table selected) (.data (.delete table filter))
  | select {table : String} {columns : List String} {filter : Given Filter} {order : Given SortOrder}
    {spec : QuerySpec} (read : Session.readSpec table columns filter order = .ok spec) :
    Calls (.select table columns filter order) (.data (.select spec))

/-- A request is called by its command. -/
theorem Demand.calls (demand : Demand) : demand.command.Calls (.data demand) := by
  cases demand with
  | insert table row => exact .insert rfl
  | update table filter row => exact .update rfl rfl
  | delete table filter => exact .delete rfl
  | select spec => exact .select rfl

/-- The fields of a filter. -/
def Filter.fields (f : Filter) : List String := f.clauses.map (·.field)

/-- The names that a selection is given. -/
def QuerySpec.names (spec : QuerySpec) : List String :=
  spec.table :: (spec.columns ++ spec.filter.fields ++ spec.order.keys.map (·.column))

/-- The names that a request is given. -/
def Demand.names : Demand → List String
  | insert table row => table :: row.names
  | update table filter row => table :: (row.names ++ filter.fields)
  | delete table filter => table :: filter.fields
  | select spec => spec.names

/-- The names that the caller gives to an operation. The columns of a check are compared and not sent. -/
def Operation.names : Operation → List String
  | createTable table spec => table :: spec.names
  | addColumns table spec => table :: spec.names
  | createIndex table column => [table, column]
  | dropTable table => [table]
  | tables => []
  | schema table => [table]
  | validateSchema table _ => [table]
  | data demand => demand.names

/-- What follows when the call of a request returns. -/
def Demand.next (context : Context) : Demand → Continuation
  | insert table _ => .publish ⟨table, .insert, none⟩ .inserted context
  | update table _ row => .publish ⟨table, .update, some row⟩ .count context
  | delete table _ => .publish ⟨table, .delete, none⟩ .count context
  | select _ => .conclude .rows context

namespace Session

variable {σ : Type}

/-- Start an operation of the store. -/
def operate (s : Session σ) (context : Context) : Operation → Progress σ
  | .createTable table spec =>
    s.request context (Request.createTable table spec)
      (.publish ⟨table, .createTable, none⟩ .done context)
  | .addColumns table spec =>
    match checkName table with
    | .error e => s.refuse context (.store e)
    | .ok _ => s.addColumns table context spec.entries
  | .createIndex table column =>
    s.request context (Request.createIndex table column) (.conclude .done context)
  | .dropTable table =>
    match Request.dropTable table with
    | .error e => s.refuse context (.store e)
    | .ok call =>
      let (s, round) := s.publish ⟨table, .dropTable, none⟩
      (s, [round, .send call (.conclude .done context)])
  | .tables => (s, [.send Request.tableList (.conclude .tables context)])
  | .schema table => s.request context (Request.tableInfo table) (.conclude .columns context)
  | .validateSchema table columns =>
    if columns.isEmpty then s.refuse context (.store (.emptySchema table))
    else s.request context (Request.tableInfo table) (.conclude (.covers columns) context)
  | .data demand => s.request context (demand.call s.now) (demand.next context)

/-- A command starts its operation. -/
theorem ask_operate (backend : Backend σ) (s : Session σ) (context : Context) {command : Command}
    {operation : Operation} (calls : command.Calls operation) :
    s.ask backend context command = (s.record (.asked command)).operate context operation := by
  cases calls with
  | createTable read =>
    rw [ask, perform, read, withArgument]
    rfl
  | addColumns read =>
    rw [ask, perform, read, withArgument]
    rfl
  | insert read =>
    rw [ask, perform, read, withArgument]
    rfl
  | update selects read =>
    rw [ask, perform, selects, withArgument, read, withArgument]
    rfl
  | delete selects =>
    rw [ask, perform, selects, withArgument]
    rfl
  | select read =>
    rw [ask, perform, read, withArgument]
    rfl
  | _ => rfl

end Session

end LiveTable
