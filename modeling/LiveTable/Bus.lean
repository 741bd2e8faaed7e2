import LiveTable.Row

/-!
# The change bus

Observers are registered for exact table names and called in the order of their registration. A
registration has a number that is never given again.
-/

namespace LiveTable

/-- What happened to a table. -/
inductive ChangeKind
  | insert
  | update
  | delete
  | dropTable
  | createTable
  deriving DecidableEq

/-- The name of a kind of change. -/
def ChangeKind.name : ChangeKind → String
  | .insert => "insert"
  | .update => "update"
  | .delete => "delete"
  | .dropTable => "dropTable"
  | .createTable => "createTable"

/-- The kind of change with a name. -/
def ChangeKind.ofName? : String → Option ChangeKind
  | "insert" => some .insert
  | "update" => some .update
  | "delete" => some .delete
  | "dropTable" => some .dropTable
  | "createTable" => some .createTable
  | _ => none

/-- The news that a table may have changed, with the row that an update sets. -/
structure ChangeEvent where
  table : String
  kind : ChangeKind
  row : Option Row
  deriving DecidableEq

/-- An observer under its number. -/
structure Registration (α : Type) where
  number : Nat
  observer : α
  deriving DecidableEq

/-- Where an observer is registered: its table and its number. -/
structure Subscription where
  table : String
  number : Nat
  deriving DecidableEq

/-- The registered observers of each table, in order of registration. A table without observers has
no entry. -/
structure Bus (α : Type) where
  nextNumber : Nat
  tables : Ordered (List (Registration α))

namespace Bus

variable {α : Type}

/-- The bus without observers. -/
def empty : Bus α := ⟨1, .empty⟩

/-- The registrations of a table. -/
def registered (bus : Bus α) (table : String) : List (Registration α) :=
  (bus.tables.get? table).getD []

/-- Register an observer for a table. -/
def subscribe (bus : Bus α) (table : String) (observer : α) : Subscription × Bus α :=
  (⟨table, bus.nextNumber⟩,
    { nextNumber := bus.nextNumber + 1
      tables := bus.tables.insert table (bus.registered table ++ [⟨bus.nextNumber, observer⟩]) })

/-- Take a registration back. -/
def unsubscribe (bus : Bus α) (s : Subscription) : Bus α :=
  let left := (bus.registered s.table).filter fun r => r.number ≠ s.number
  { bus with
    tables := if left.isEmpty then bus.tables.erase s.table else bus.tables.insert s.table left }

/-- Forget all registrations. Their numbers are not given again. -/
def clear (bus : Bus α) : Bus α := { bus with tables := .empty }

/-- The observers that an event for a table is delivered to, in order. -/
def observers (bus : Bus α) (table : String) : List α :=
  (bus.registered table).map (·.observer)

/-- The number of observers of a table. -/
def count (bus : Bus α) (table : String) : Nat := (bus.registered table).length

@[simp] theorem registered_empty (table : String) : (empty : Bus α).registered table = [] := rfl

@[simp] theorem registered_clear (bus : Bus α) (table : String) : bus.clear.registered table = [] :=
  rfl

/-- A registration goes to the end of its table's list. -/
theorem registered_subscribe (bus : Bus α) (table other : String) (observer : α) :
    (bus.subscribe table observer).2.registered other =
      bus.registered other ++ if table = other then [⟨bus.nextNumber, observer⟩] else [] := by
  simp only [registered, subscribe, Ordered.get?_insert]
  by_cases same : table = other
  · subst same
    simp
  · simp [same]

/-- Taking a registration back leaves the others in their order. -/
theorem registered_unsubscribe (bus : Bus α) (s : Subscription) (table : String) :
    (bus.unsubscribe s).registered table =
      (bus.registered table).filter fun r => s ≠ ⟨table, r.number⟩ := by
  obtain ⟨place, number⟩ := s
  simp only [unsubscribe]
  by_cases same : place = table
  · subst same
    have kept : (bus.registered place).filter (fun r => r.number ≠ number) =
        (bus.registered place).filter fun r => (⟨place, number⟩ : Subscription) ≠ ⟨place, r.number⟩ := by
      congr 1
      funext r
      simp [eq_comm]
    rw [← kept]
    split
    · rename_i none
      rw [registered, Ordered.get?_erase, if_pos rfl]
      exact (List.isEmpty_iff.mp none).symm
    · rw [registered, Ordered.get?_insert, if_pos rfl, Option.getD_some]
  · have all : ((bus.registered table).filter fun r =>
        (⟨place, number⟩ : Subscription) ≠ ⟨table, r.number⟩) = bus.registered table := by
      simp [same]
    rw [all]
    split
    · rw [registered, Ordered.get?_erase, if_neg same, registered]
    · rw [registered, Ordered.get?_insert, if_neg same, registered]

end Bus

end LiveTable
