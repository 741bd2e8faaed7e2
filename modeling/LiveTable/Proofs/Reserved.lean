import LiveTable.Database
import LiveTable.Proofs.Operations
import LiveTable.Proofs.Requests

/-!
# The reserved column

The store sets the reserved column in every declaration and in every row that it inserts, in place of what
the caller gives under its name. It compares names letter by letter, but a database does not tell capitals
from small letters. So the reserved column is set by the store alone if and only if the caller gives it in
no other spelling; and if both are given, it is the value of the caller that a database stores.
-/

namespace LiveTable

variable {α σ : Type}

/-- The entries that a database takes for the reserved column: those of its name in any spelling. -/
def reservedIn (entries : List (String × α)) : List (String × α) :=
  entries.filter fun e => Text.sameName e.1 addedColumn

/-- What is sent has the reserved name once with the value of the store, and beside it what was given. -/
structure Reserves (value : α) (given sent : List (String × α)) : Prop where
  own : sent.filter (·.1 = addedColumn) = [(addedColumn, value)]
  others : sent.filter (·.1 ≠ addedColumn) = given.filter (·.1 ≠ addedColumn)
  /-- The store alone sets the column if it is given in no other spelling. -/
  alone : reservedIn sent = [(addedColumn, value)] ↔
    ∀ e ∈ given, Text.sameName e.1 addedColumn = true → e.1 = addedColumn

/-! ## Setting one name -/

theorem Ordered.filter_place_other (name : String) (value : α) (l : List (String × α)) :
    (place name value l).filter (·.1 ≠ name) = l.filter (·.1 ≠ name) := by
  induction l with
  | nil => simp [place]
  | cons e rest ih =>
    obtain ⟨n, v⟩ := e
    by_cases same : n = name
    · simp [place, same]
    · simpa [place, same] using ih

theorem Ordered.filter_place_same (name : String) (value : α) {l : List (String × α)}
    (nodup : (l.map Prod.fst).Nodup) :
    (place name value l).filter (·.1 = name) = [(name, value)] := by
  induction l with
  | nil => simp [place]
  | cons e rest ih =>
    obtain ⟨n, v⟩ := e
    obtain ⟨new, nodup⟩ := List.nodup_cons.mp nodup
    by_cases same : n = name
    · subst same
      have none : rest.filter (·.1 = n) = [] := List.filter_eq_nil_iff.mpr fun e member equal =>
        new (List.mem_map.mpr ⟨e, member, by simpa using equal⟩)
      simp [place, none]
    · simpa [place, same] using ih nodup

/-- Under other names the entries stay. -/
theorem Ordered.mem_insert_other {m : Ordered α} {name : String} {value : α} {e : String × α}
    (other : e.1 ≠ name) : e ∈ (m.insert name value).entries ↔ e ∈ m.entries := by
  have same := filter_place_other name value m.entries
  have kept (l : List (String × α)) : e ∈ l.filter (·.1 ≠ name) ↔ e ∈ l := by simp [other]
  rw [← kept, ← kept m.entries, ← same]
  rfl

/-- Inserting the reserved name sets it. -/
theorem reserves_insert (m : Ordered α) (value : α) :
    Reserves value m.entries (m.insert addedColumn value).entries where
  own := Ordered.filter_place_same addedColumn value m.nodup
  others := Ordered.filter_place_other addedColumn value m.entries
  alone := by
    have own := Ordered.filter_place_same addedColumn value m.nodup
    constructor
    · intro alone e member spelled
      refine Classical.byContradiction fun different => ?_
      have reserved : e ∈ reservedIn (m.insert addedColumn value).entries :=
        List.mem_filter.mpr ⟨(Ordered.mem_insert_other different).mpr member, spelled⟩
      rw [alone, List.mem_singleton] at reserved
      exact different (congrArg Prod.fst reserved)
    · intro proper
      rw [← own]
      refine List.filter_congr fun e member => ?_
      by_cases same : e.1 = addedColumn
      · rw [same]
        rfl
      · cases spelled : Text.sameName e.1 addedColumn with
        | true => exact absurd (proper e ((Ordered.mem_insert_other same).mp member) spelled) same
        | false => simp [same]

theorem identifiers_insert {m : Ordered α} (named : ∀ name ∈ m.names, isIdentifier name = true) (value : α) :
    checkNames (m.insert addedColumn value).names = .ok () := by
  refine checkNames_eq_ok.mpr fun name member => ?_
  have member : name ∈ (Ordered.place addedColumn value m.entries).map Prod.fst := member
  rw [Ordered.names_place] at member
  split at member
  · exact named name member
  · rcases List.mem_append.mp member with old | new
    · exact named name old
    · rw [List.mem_singleton.mp new]
      decide

/-! ## What is sent -/

/-- Of identifiers, creating a table and inserting a row send one statement each. It has the reserved name
once, declared as a plain integer and with the time of the store, and what the caller gives under other
names is sent as it is given. To a database that is the only mention of the reserved column if and only if
the caller does not spell its name in another way. -/
theorem reserved_column_set {table : String} {spec : ColumnSpec} {row : Row}
    (named : isIdentifier table = true) (declared : ∀ name ∈ spec.names, isIdentifier name = true)
    (given : ∀ name ∈ row.names, isIdentifier name = true) (s : Session σ) (context : Context) :
    (∃ columns next, s.operate context (.createTable table spec) =
        (s, [.send ⟨.execute, .createTable table columns, []⟩ next]) ∧
      Reserves (.plain .integer) spec.entries columns ∧ (ColumnDef.plain .integer).sql = "INTEGER") ∧
    (∃ columns params next, s.operate context (.data (.insert table row)) =
        (s, [.send ⟨.run, .insert table columns, params⟩ next]) ∧
      columns.length = params.length ∧
      Reserves (.integer s.now) row.entries (columns.zip params)) := by
  have checked : checkName table = .ok () := checkName_eq_ok.mpr named
  constructor
  · have sends : Request.createTable table spec =
        .ok ⟨.execute, .createTable table (Request.declaredColumns spec).entries, []⟩ :=
      Request.createTable_eq_ok.mpr ⟨checked, identifiers_insert declared _, rfl⟩
    exact ⟨_, _, by rw [Session.operate, sends]; rfl, reserves_insert spec _, by decide⟩
  · have sends : Request.insert s.now table row = .ok ⟨.run, .insert table
        (Request.stamped s.now row).names, (Request.stamped s.now row).values⟩ :=
      Request.insert_eq_ok.mpr ⟨checked, identifiers_insert given _, rfl⟩
    refine ⟨_, _, _, by rw [Session.operate, Demand.call, sends]; rfl, ?_, ?_⟩
    · simp [Ordered.names, Ordered.values]
    · have entries : (Request.stamped s.now row).names.zip (Request.stamped s.now row).values =
          (Request.stamped s.now row).entries := (List.zip_of_prod rfl rfl).symm
      rw [entries]
      exact reserves_insert row _

/-- Notes with a title, stamped by the store. The caller gives the reserved name in small letters. -/
theorem reserved_column_notes : isIdentifier "notes" = true ∧
    (∃ columns next, (Session.start () true 1000).operate .top (.createTable "notes"
        (.ofList [("added", .plain .text), ("line", .plain .text)])) =
        (.start () true 1000, [.send ⟨.execute, .createTable "notes" columns, []⟩ next]) ∧
      Reserves (.plain .integer) [("added", .plain .text), ("line", .plain .text)] columns ∧
      (ColumnDef.plain .integer).sql = "INTEGER") ∧
    (∃ columns params next, (Session.start () true 1000).operate .top (.data (.insert "notes"
        (.ofList [("added", .integer 5), ("line", .text "a")]))) =
        (.start () true 1000, [.send ⟨.run, .insert "notes" columns, params⟩ next]) ∧
      columns.length = params.length ∧
      Reserves (.integer 1000) [("added", .integer 5), ("line", .text "a")] (columns.zip params)) :=
  ⟨by decide, reserved_column_set (by decide) (by decide) (by decide) (.start () true 1000) .top⟩

/-- A row of notes whose caller spells the reserved name in capitals. -/
def capitals : Row := .ofList [("title", .text "x"), ("ADDED", .integer 5)]

/-- Notes in a database, and the row in it. -/
def capitalNotes : Database :=
  let notes := (Database.inMemory.answer ⟨.execute, .createTable "notes"
    [("title", .plain .text), ("added", .plain .integer)], []⟩).2
  (notes.answer ⟨.run, .insert "notes" (Request.stamped 1000 capitals).names,
    (Request.stamped 1000 capitals).values⟩).2

/-- In capitals the reserved name is declared twice, and it is bound to the value of the caller beside the
time; the database keeps the value of the caller. -/
theorem reserved_column_supplied :
    (∃ columns, Request.createTable "notes" (.ofList [("ADDED", .plain .text)]) =
        .ok ⟨.execute, .createTable "notes" columns, []⟩ ∧
      reservedIn columns = [("ADDED", .plain .text), ("added", .plain .integer)]) ∧
    (∃ columns params, Request.insert 1000 "notes" capitals =
        .ok ⟨.run, .insert "notes" columns, params⟩ ∧
      reservedIn (columns.zip params) = [("ADDED", .integer 5), ("added", .integer 1000)]) ∧
    capitalNotes.content.tables.map (·.records) = [[⟨1, [.text "x", .integer 5]⟩]] :=
  ⟨⟨_, rfl, by decide⟩, ⟨_, _, rfl, by decide⟩, by decide⟩

end LiveTable
