import LiveTable.Statement

/-!
# Storages

A storage answers calls and has a state of its own. In front of it may stand a row of prepared
replies: each call takes the first of them, and only a normal reply lets the call through.
-/

namespace LiveTable

/-- The answer to a call. -/
inductive Answer
  | done
  /-- The number of the row inserted last, and how many rows changed. -/
  | changed (id : Int64) (changes : Nat)
  | rows (rows : List Row)
  | failed (message : String)
  deriving DecidableEq

namespace Answer

/-- The answer that says nothing, for each kind of call. -/
def blank : CallKind → Answer
  | .execute => .done
  | .run => .changed 0 0
  | .query => .rows []

/-- A call sent for its effect alone succeeded. -/
def toDone : Answer → Except Error Unit
  | .failed message => .error (.storage message)
  | _ => .ok ()

/-- The row number and the count of an answer. -/
def toChanged : Answer → Except Error (Int64 × Nat)
  | .changed id changes => .ok (id, changes)
  | .failed message => .error (.storage message)
  | _ => .ok (0, 0)

/-- The rows of an answer. -/
def toRows : Answer → Except Error (List Row)
  | .rows found => .ok found
  | .failed message => .error (.storage message)
  | _ => .ok []

end Answer

/-- What a query yields: the names of its columns, and for each row the values in the order of the
columns. -/
structure ResultSet where
  names : List String
  rows : List (List Value)
  deriving DecidableEq

namespace ResultSet

/-- A row of values under the names of the columns. They are put in from left to right, so columns
of one name become one entry. -/
def keyed (names : List String) (values : List Value) : Row := Ordered.ofList (names.zip values)

/-- The rows by the names of the columns. -/
def collect (result : ResultSet) : List Row := result.rows.map (keyed result.names)

end ResultSet

/-- A prepared reply. -/
inductive Reply
  /-- The storage itself answers. -/
  | normal
  | fail (message : String)
  | changed (id : Int64) (changes : Nat)
  | rows (rows : List Row)
  deriving DecidableEq

/-- The answer that a prepared reply gives to a kind of call; a reply of the wrong shape says
nothing. -/
def Reply.answer? (kind : CallKind) : Reply → Option Answer
  | .normal => none
  | .fail message => some (.failed message)
  | .changed id changes =>
    some (if kind = .run then .changed id changes else .blank kind)
  | .rows found => some (if kind = .query then .rows found else .blank kind)

/-- Why a storage could not be opened. -/
inductive OpenError
  | configRead (path : String)
  | configParse (path : String)
  | directory
  | database (path : String)
  | configure
  /-- The time to wait for a locked database is too long to be set, which stops the program. -/
  | timeoutRange
  deriving DecidableEq

/-- The message of an error. -/
def OpenError.message : OpenError → String
  | .configRead path => "Failed to read config file " ++ path
  | .configParse path => "Failed to parse config file " ++ path
  | .directory => "Failed to create database directory"
  | .database path => "Failed to open SQLite database at " ++ path
  | .configure => "Failed to configure SQLite connection"
  | .timeoutRange => "too big"

/-- A storage with states of type `σ`. -/
structure Backend (σ : Type) where
  answer : Call → σ → Answer × σ
  /-- Close the storage and open it again. -/
  reopen : σ → Except OpenError σ

/-- The storage that answers nothing and keeps nothing. -/
def Backend.mute : Backend Unit where
  answer call _ := (.blank call.kind, ())
  reopen _ := .ok ()

end LiveTable
