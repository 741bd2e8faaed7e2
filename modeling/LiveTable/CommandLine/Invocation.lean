import LiveTable.CommandLine.Arguments
import LiveTable.Session.Command

/-!
# Invocations

What a command line asks for: a command of the store, and options that say where the store is and
how much is logged. The options stand in front of the command.
-/

namespace LiveTable.CommandLine

/-- A command line that is understood. -/
structure Invocation where
  /-- The path of the database, in place of the configured one. -/
  database : Option String
  /-- The path of the configuration. -/
  config : Option String
  /-- How often more logging is asked for. -/
  verbosity : Nat
  command : Command

namespace Invocation

/-- The options in front of the command. -/
def forms : List OptionForm :=
  [⟨"database", some 'd', true⟩, ⟨"config", some 'c', true⟩, ⟨"verbose", some 'v', false⟩]

/-- The options of a command. -/
def commandForms : String → List OptionForm
  | "update" => [⟨"filter", some 'f', true⟩]
  | "delete" => [⟨"filter", some 'f', true⟩, ⟨"all", none, false⟩]
  | "select" =>
    [⟨"columns", none, true⟩, ⟨"filter", some 'f', true⟩, ⟨"sort", some 's', true⟩]
  | _ => []

/-- An argument that is JSON text if it is given. -/
def given {α : Type} (empty : α) : Option String → Given α
  | some text => .json text
  | none => .value empty

/-- The filter of a deletion: either it is given, or all rows are meant. -/
def deletionFilter? (a : Arguments) : Option (Given Filter) := do
  match ← a.value? "filter", a.count "all" with
  | some text, 0 => some (.json text)
  | none, 1 => some (.value .empty)
  | _, _ => none

/-- The command of a name and its arguments. -/
def command? (name : String) (a : Arguments) : Option Command :=
  match name, a.words with
  | "tables", [] => some .tables
  | "schema", [table] => some (.schema table)
  | "create-table", table :: column :: columns => some (.createTable table (column :: columns))
  | "add-columns", table :: column :: columns => some (.addColumns table (column :: columns))
  | "create-index", [table, column] => some (.createIndex table column)
  | "validate", table :: columns => some (.validateSchema table columns)
  | "insert", [table, data] => some (.insert table (.json data))
  | "update", [table, data] => do
    some (.update table (.json (← ← a.value? "filter")) (.json data))
  | "delete", [table] => do some (.delete table (← deletionFilter? a))
  | "select", [table] => do
    let columns := (a.values "columns").flatMap (Text.split ',')
    let filter ← a.value? "filter"
    let order ← a.value? "sort"
    some (.select table columns (given .empty filter) (given .empty order))
  | "drop", [table] => some (.dropTable table)
  | _, _ => none

/-- The value of an option that is a path, which must not be empty. -/
def path? (a : Arguments) (name : String) : Option (Option String) := do
  let path ← a.value? name
  if path = some "" then none else some path

/-- The invocation of a command line. -/
def read? (arguments : List String) : Option Invocation := do
  let outer ← Arguments.read? forms true arguments
  let database ← path? outer "database"
  let config ← path? outer "config"
  match outer.words with
  | [] => none
  | name :: rest =>
    let inner ← Arguments.read? (commandForms name) false rest
    some ⟨database, config, outer.count "verbose", ← command? name inner⟩

end Invocation

end LiveTable.CommandLine
