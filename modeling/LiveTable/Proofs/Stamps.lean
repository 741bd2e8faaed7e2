import LiveTable.Proofs.Reserved
import LiveTable.Proofs.Sending
import LiveTable.Proofs.Storages

/-!
# Stamps

The reserved column of a record holds the time of its insertion. A statement finds a column under any
spelling of its name, and an update assigns to the columns that the caller names. So the stamp stays if the
caller lets it: if no update names the reserved column, and no row that is inserted has it in another
spelling. Then the stamp of every record is the time at which the store inserted it, through all changes of
the record and of its table.
-/

namespace LiveTable

/-- A statement of the store that leaves the stamps alone: an update assigns to no spelling of the reserved
name, and an insertion has the reserved name in one spelling only. -/
def Call.SparesStamps (call : Call) : Prop :=
  match call.statement with
  | .insert _ columns => ∀ c ∈ columns, Text.sameName c addedColumn = true → c = addedColumn
  | .update _ columns _ => ∀ c ∈ columns, Text.sameName c addedColumn = false
  | .verbatim _ => False
  | _ => True

instance (call : Call) : Decidable call.SparesStamps :=
  match call with
  | ⟨_, .insert _ columns, _⟩ =>
    inferInstanceAs (Decidable (∀ c ∈ columns, Text.sameName c addedColumn = true → c = addedColumn))
  | ⟨_, .update _ columns _, _⟩ =>
    inferInstanceAs (Decidable (∀ c ∈ columns, Text.sameName c addedColumn = false))
  | ⟨_, .verbatim _, _⟩ => isFalse id
  | ⟨_, .createTable .., _⟩ | ⟨_, .addColumn .., _⟩ | ⟨_, .createIndex .., _⟩ | ⟨_, .dropTable _, _⟩
  | ⟨_, .delete .., _⟩ | ⟨_, .select .., _⟩ | ⟨_, .tableList, _⟩ | ⟨_, .tableInfo _, _⟩
  | ⟨_, .setting _, _⟩ => isTrue trivial

/-- A storage with some content answers a call, and has some content then. -/
def Backend.Turns {σ : Type} (backend : Backend σ) (content : σ → Database.Content) (call : Call)
    (answer : Answer) (c c' : Database.Content) : Prop :=
  ∃ storage, content storage = c ∧ (backend.answer call storage).1 = answer ∧
    content (backend.answer call storage).2 = c'

namespace Database

variable {t t' : Table} {i : Nat} {params : List Value} {references : List Reference}

/-- The column of stamps of a table is the reserved column, an integer without constraints. -/
structure Table.Stamps (t : Table) (i : Nat) : Prop where
  named : t.columnIndex? addedColumn = some i
  plain : t.columns[i]? = some (.ofDef addedColumn (.plain .integer))

/-- What a call leaves of a record of a table, if the record is still there. -/
inductive Leaves (call : Call) (t : Table) (r : Record) : Record → Prop
  | same : Leaves call t r r
  | extended {table column : String} {d : ColumnDef} (adds : call.statement = .addColumn table column d) :
    Leaves call t r { r with cells := r.cells ++ [.null] }
  | assigned {table : String} {columns : List String} {tests : List Test} {references : List Reference}
    {r' : Record} (updates : call.statement = .update table columns tests)
    (resolves : resolveAssigned t columns = .ok references)
    (assigns : assign t (references.zip ((call.params.take columns.length).map bind)) r = .ok r') :
    Leaves call t r r'

/-- A record of a table was inserted at a time, and the calls after that left it in the table. The turns are
the answers to calls, with what there is before and after them. -/
inductive Life (turns : Call → Answer → Content → Content → Prop) (sent : Call → Prop) :
    Content → Table → Record → Int64 → Prop
  | inserted {now : Int64} {name : String} {row : Row} {call : Call} {c c' : Content} {t : Table}
    {r : Record} (made : Request.insert now name row = .ok call) (sends : sent call)
    (turn : turns call (.changed r.number 1) c c') (table : t ∈ c'.tables)
    (named : Text.sameName t.name name = true) (record : r ∈ t.records) : Life turns sent c' t r now
  | kept {now : Int64} {call : Call} {answer : Answer} {c c' : Content} {t t' : Table} {r r' : Record}
    (life : Life turns sent c t r now) (sends : sent call) (turn : turns call answer c c')
    (table : t' ∈ c'.tables) (named : t'.name = t.name) (record : r' ∈ t'.records)
    (leaves : Leaves call t r r') : Life turns sent c' t' r' now

/-- The table has a column of stamps, and every record in it has the time of its insertion there. Only the
table of sequences has none. -/
def Stamped (turns : Call → Answer → Content → Content → Prop) (sent : Call → Prop) (c : Content)
    (t : Table) : Prop :=
  t.name = sequenceName ∧ t.columnIndex? addedColumn = none ∨
    isSystemName t.name = false ∧ ∃ i, t.Stamps i ∧
      ∀ r ∈ t.records, ∃ now, Life turns sent c t r now ∧ r.cells[i]? = some (.integer now)

/-! ## The column of stamps -/

/-- The column of stamps does not name the number of a record. -/
theorem Table.Stamps.numberColumn? (stamps : t.Stamps i) : t.numberColumn? ≠ some i := by
  intro number
  obtain ⟨bound, key, -⟩ := List.findIdx?_eq_some_iff_getElem.mp number
  have plain := (List.getElem?_eq_getElem bound).symm.trans stamps.plain
  rw [Option.some.inj plain] at key
  cases key

/-- The names of the column of stamps are the spellings of the reserved name. -/
theorem Table.Stamps.columnReference? (stamps : t.Stamps i) (name : String) :
    t.columnReference? name = some (.cell i) ↔ Text.sameName name addedColumn = true := by
  have column : t.columnReference? addedColumn = some (.cell i) := by
    simp only [Table.columnReference?, stamps.named, if_neg stamps.numberColumn?]
  constructor
  · intro refers
    unfold Table.columnReference? at refers
    split at refers
    · rename_i j found
      split at refers
      · cases refers
      · cases refers
        obtain ⟨bound, same, -⟩ := List.findIdx?_eq_some_iff_getElem.mp found
        have plain := (List.getElem?_eq_getElem bound).symm.trans stamps.plain
        rw [Option.some.inj plain] at same
        rw [Text.sameName, beq_iff_eq] at *
        exact same.symm
    · split at refers <;> cases refers
  · intro same
    have spelled : t.columnIndex? name = t.columnIndex? addedColumn := by
      rw [Text.sameName, beq_iff_eq] at same
      simp only [Table.columnIndex?, Text.sameName, same]
    rw [← column, Table.columnReference?, spelled, stamps.named, Table.columnReference?, stamps.named]

/-- Columns that are added behind the others leave the column of stamps where it is. -/
theorem Table.Stamps.append (stamps : t.Stamps i) {more : List TableColumn}
    (columns : t'.columns = t.columns ++ more) : t'.Stamps i where
  named := by
    have named := stamps.named
    simp only [Table.columnIndex?] at named ⊢
    rw [columns, List.findIdx?_append, named]
    rfl
  plain := by
    obtain ⟨bound, -⟩ := List.getElem?_eq_some_iff.mp stamps.plain
    rw [columns]
    exact (List.getElem?_append_left bound).trans stamps.plain

/-! ## Values for columns -/

theorem resolveInserted_ok {table : String} {columns : List String}
    (resolves : resolveInserted t table columns = .ok references) :
    columns.map t.columnReference? = references.map some := by
  induction columns generalizing references with
  | nil =>
    cases resolves
    rfl
  | cons name rest ih =>
    unfold resolveInserted at resolves
    split at resolves
    · rename_i reference known
      obtain ⟨others, resolved, same⟩ := bind_eq_ok.mp resolves
      cases same
      rw [List.map_cons, known, ih resolved, List.map_cons]
    · cases resolves

theorem resolveAssigned_ok {columns : List String} (resolves : resolveAssigned t columns = .ok references) :
    columns.map t.columnReference? = references.map some := by
  induction columns generalizing references with
  | nil =>
    cases resolves
    rfl
  | cons name rest ih =>
    unfold resolveAssigned at resolves
    split at resolves
    · rename_i reference known
      obtain ⟨others, resolved, same⟩ := bind_eq_ok.mp resolves
      cases same
      rw [List.map_cons, known, ih resolved, List.map_cons]
    · cases resolves

/-- The values that are given for references are those that stand behind their names. -/
theorem mem_given {columns : List String} (resolved : columns.map t.columnReference? = references.map some)
    {reference : Reference} {v : Value} : (reference, v) ∈ references.zip (params.map bind) ↔
      ∃ e ∈ columns.zip params, t.columnReference? e.1 = some reference ∧ bind e.2 = v := by
  have given : (references.zip (params.map bind)).map (Prod.map some id) =
      (columns.zip params).map (Prod.map t.columnReference? bind) := by
    rw [← List.zip_map, ← List.zip_map, resolved, List.map_id]
  have member : (reference, v) ∈ references.zip (params.map bind) ↔
      (some reference, v) ∈ (references.zip (params.map bind)).map (Prod.map some id) := by
    simp
  rw [member, given, List.mem_map]
  simp only [Prod.map, Prod.mk.injEq]

theorem firstFor_eq {given : List (Reference × Value)} {v : Value} (some' : (.cell i, v) ∈ given)
    (only : ∀ other, (.cell i, other) ∈ given → other = v) : firstFor given i = some v := by
  cases first : firstFor given i with
  | none =>
    have missing := List.find?_eq_none.mp (Option.map_eq_none_iff.mp first) _ some'
    simp at missing
  | some other =>
    obtain ⟨⟨reference, _⟩, found, rfl⟩ := Option.map_eq_some_iff.mp first
    have same : reference = .cell i := by simpa using List.find?_some found
    exact congrArg some (only _ (same ▸ List.mem_of_find?_eq_some found))

theorem lastFor_none {given : List (Reference × Value)} {reference : Reference}
    (none' : ∀ v, (reference, v) ∉ given) : lastFor given reference = none := by
  unfold lastFor
  rw [Option.map_eq_none_iff, List.find?_eq_none]
  rintro ⟨other, v⟩ member same
  have same : other = reference := by simpa using same
  exact none' v (same ▸ List.mem_reverse.mp member)

/-- A new record has the stamp that the store gives it, if the caller gives none in another spelling. -/
theorem Table.Stamps.filled (stamps : t.Stamps i) {now number : Int64} {table : String} {row : Row}
    (resolves : resolveInserted t table (Request.stamped now row).names = .ok references)
    (spared : ∀ c ∈ (Request.stamped now row).names, Text.sameName c addedColumn = true → c = addedColumn) :
    (t.filled (references.zip ((Request.stamped now row).values.map bind)) number)[i]? =
      some (.integer now) := by
  have entries : (Request.stamped now row).names.zip (Request.stamped now row).values =
      (Request.stamped now row).entries := (List.zip_of_prod rfl rfl).symm
  have given {reference : Reference} {v : Value} :
      (reference, v) ∈ references.zip ((Request.stamped now row).values.map bind) ↔
        ∃ e ∈ (Request.stamped now row).entries, t.columnReference? e.1 = some reference ∧ bind e.2 = v :=
    entries ▸ mem_given (resolveInserted_ok resolves)
  have own := (reserves_insert row (.integer now)).own
  have first : firstFor (references.zip ((Request.stamped now row).values.map bind)) i =
      some (.integer now) := by
    refine firstFor_eq (given.mpr ⟨(addedColumn, .integer now), ?_, ?_, rfl⟩) fun other member => ?_
    · exact (List.mem_filter.mp (own ▸ List.mem_singleton_self _)).1
    · exact (stamps.columnReference? addedColumn).mpr (by decide)
    · obtain ⟨⟨name, value⟩, present, refers, rfl⟩ := given.mp member
      have spelled := spared name (List.mem_map_of_mem present) ((stamps.columnReference? name).mp refers)
      have reserved : (name, value) ∈ [(addedColumn, Value.integer now)] :=
        own ▸ List.mem_filter.mpr ⟨present, by simpa using spelled⟩
      cases List.mem_singleton.mp reserved
      rfl
  simp only [Table.filled, List.getElem?_map, List.getElem?_zipIdx, stamps.plain, Option.map_some,
    Nat.zero_add, if_neg stamps.numberColumn?, first, Option.getD_some]
  rfl

/-- Changing the cells at other places keeps a cell. -/
theorem getElem?_zipIdx_map {α : Type} {l : List α} {f : α × Nat → α} (kept : ∀ a, f (a, i) = a) :
    (l.zipIdx.map f)[i]? = l[i]? := by
  rw [List.getElem?_map, List.getElem?_zipIdx, Nat.zero_add, Option.map_map]
  cases l[i]? with
  | none => rfl
  | some a => exact congrArg some (kept a)

/-- Assigning keeps the stamp of a record if no spelling of the reserved name is assigned to. -/
theorem Table.Stamps.assign (stamps : t.Stamps i) {columns : List String}
    (resolves : resolveAssigned t columns = .ok references)
    (spared : ∀ c ∈ columns, Text.sameName c addedColumn = false) {r r' : Record}
    (assigns : assign t (references.zip (params.map bind)) r = .ok r') : r'.cells[i]? = r.cells[i]? := by
  have last : lastFor (references.zip (params.map bind)) (.cell i) = none := by
    refine lastFor_none fun v member => ?_
    obtain ⟨⟨name, value⟩, member, refers, -⟩ := (mem_given (resolveAssigned_ok resolves)).mp member
    have spelled := (stamps.columnReference? name).mp refers
    rw [spared name (List.of_mem_zip member).1] at spelled
    cases spelled
  unfold Database.assign at assigns
  simp only at assigns
  split at assigns
  · obtain ⟨number, -, same⟩ := bind_eq_ok.mp assigns
    cases same
    exact getElem?_zipIdx_map fun v => by simp only [if_neg stamps.numberColumn?, last]
  · cases assigns
    exact getElem?_zipIdx_map fun v => by simp only [if_neg stamps.numberColumn?, last]

/-! ## A new table -/

theorem declare_ok {table : String} {columns : List TableColumn} {hasKey : Bool} {name : String}
    {d : ColumnDef} {column : TableColumn} (declares : declare table columns hasKey name d = .ok column) :
    column = .ofDef name d ∧ ∀ c ∈ columns, Text.sameName c.name name = false := by
  unfold declare at declares
  split at declares
  · cases declares
  · rename_i new
    split at declares
    · cases declares
    · split at declares
      · cases declares
      · cases declares
        exact ⟨rfl, by simpa using new⟩

/-- The columns of a new table are those that are declared, and no two have one name. -/
theorem declareAll_ok {table : String} {offset : Nat → Nat} {before declared : List TableColumn}
    {columns : List (String × ColumnDef)} (declares : declareAll table offset before columns = .ok declared) :
    declared = before ++ columns.map (fun e => .ofDef e.1 e.2) ∧
      (before.Pairwise (fun a b => Text.sameName a.name b.name = false) →
        declared.Pairwise fun a b => Text.sameName a.name b.name = false) := by
  induction columns generalizing before with
  | nil =>
    cases declares
    exact ⟨by simp, id⟩
  | cons e rest ih =>
    obtain ⟨name, d⟩ := e
    simp only [declareAll] at declares
    obtain ⟨-, -, declares⟩ := bind_eq_ok.mp declares
    obtain ⟨column, first, declares⟩ := bind_eq_ok.mp declares
    obtain ⟨rfl, new⟩ := declare_ok first
    obtain ⟨shape, distinct⟩ := ih declares
    refine ⟨by simp [shape], fun apart => distinct (List.pairwise_append.mpr ⟨apart, by simp, ?_⟩)⟩
    intro c member other last
    rw [List.mem_singleton.mp last]
    exact new c member

/-- The column of stamps of a new table. -/
theorem stamps_declared {spec : ColumnSpec} {table : String} {offset : Nat → Nat}
    (declares : declareAll table offset [] (Request.declaredColumns spec).entries = .ok t.columns) :
    ∃ i, t.Stamps i := by
  obtain ⟨shape, distinct⟩ := declareAll_ok declares
  have apart := distinct .nil
  have own := (reserves_insert spec (.plain .integer)).own
  have reserved : (addedColumn, ColumnDef.plain .integer) ∈ (Request.declaredColumns spec).entries :=
    (List.mem_filter.mp (own ▸ List.mem_singleton_self _)).1
  have member : TableColumn.ofDef addedColumn (.plain .integer) ∈ t.columns := by
    rw [shape, List.nil_append]
    exact List.mem_map_of_mem (f := fun e : String × ColumnDef => TableColumn.ofDef e.1 e.2) reserved
  obtain ⟨i, bound, column⟩ := List.getElem_of_mem member
  -- No two columns have one name, so this one is the first of its name.
  refine ⟨i, List.findIdx?_eq_some_iff_getElem.mpr ⟨bound, ?_, fun j less => ?_⟩, ?_⟩
  · rw [column]
    decide
  · have other := List.pairwise_iff_getElem.mp apart j i (Nat.lt_trans less bound) bound less
    rw [column] at other
    exact Bool.eq_false_iff.mp other
  · rw [List.getElem?_eq_getElem bound, column]

/-! ## Changes of records -/

theorem mem_insertRecord {r other : Record} {records : List Record} :
    other ∈ insertRecord r records ↔ other = r ∨ other ∈ records := by
  induction records with
  | nil => simp [insertRecord]
  | cons head rest ih =>
    unfold insertRecord
    split
    · simp
    · simp only [List.mem_cons, ih]
      exact or_left_comm

/-- After an update a record is as it was, or it is what assigning makes of one. -/
theorem assignAll_ok {given : List (Reference × Value)} {records found changed : List Record}
    (assigns : assignAll t given records found = .ok changed) {r' : Record} (member : r' ∈ changed) :
    r' ∈ records ∨ ∃ r ∈ found, assign t given r = .ok r' := by
  induction found generalizing records with
  | nil =>
    cases assigns
    exact .inl member
  | cons r rest ih =>
    simp only [assignAll, bind_eq_ok] at assigns
    obtain ⟨new, first, -, -, assigns⟩ := assigns
    have later : assignAll t given
        (insertRecord new (records.filter fun other => other.number ≠ r.number)) rest = .ok changed := by
      split at assigns
      · obtain ⟨-, -, assigns⟩ := bind_eq_ok.mp assigns
        exact (check_bind_eq_ok.mp assigns).2
      · exact (check_bind_eq_ok.mp assigns).2
    rcases ih later with old | ⟨other, present, assigns⟩
    · rcases mem_insertRecord.mp old with rfl | old
      · exact .inr ⟨r, List.mem_cons_self .., first⟩
      · exact .inl (List.mem_filter.mp old).1
    · exact .inr ⟨other, List.mem_cons_of_mem _ present, assigns⟩

/-! ## One call -/

variable {turns : Call → Answer → Content → Content → Prop} {sent : Call → Prop} {call : Call}
  {answer : Answer} {c c' : Content}

/-- A table keeps its stamps over a call if every record in it has the time at which it was inserted, or is
what the call leaves of a record whose stamp stays. -/
theorem Stamped.turn (stamped : Stamped turns sent c t) (sends : sent call) (turn : turns call answer c c')
    (new : t' ∈ c'.tables) (named : t'.name = t.name) {more : List TableColumn}
    (columns : t'.columns = t.columns ++ more) (alterable : more = [] ∨ isSystemName t.name = false)
    (records : ∀ i, t.Stamps i → ∀ r' ∈ t'.records,
      (∃ now, Life turns sent c' t' r' now ∧ r'.cells[i]? = some (.integer now)) ∨
        ∃ r ∈ t.records, Leaves call t r r' ∧ ∀ v, r.cells[i]? = some v → r'.cells[i]? = some v) :
    Stamped turns sent c' t' := by
  rcases stamped with ⟨own, none⟩ | ⟨proper, i, stamps, lives⟩
  · -- The table of sequences gets no column, so none of its columns is reserved then either.
    rcases alterable with rfl | proper
    · refine .inl ⟨named.trans own, ?_⟩
      rw [List.append_nil] at columns
      simpa only [Table.columnIndex?, columns] using none
    · rw [own] at proper
      exact absurd proper (by decide +kernel)
  · refine .inr ⟨named ▸ proper, i, stamps.append columns, fun r' member => ?_⟩
    rcases records i stamps r' member with fresh | ⟨r, old, leaves, same⟩
    · exact fresh
    · obtain ⟨now, life, stamp⟩ := lives r old
      exact ⟨now, .kept life sends turn new named member leaves, same _ stamp⟩

/-- A table that stays as it is keeps its stamps. -/
theorem Stamped.rest (stamped : Stamped turns sent c t) (sends : sent call) (turn : turns call answer c c')
    (new : t ∈ c'.tables) : Stamped turns sent c' t :=
  stamped.turn sends turn new rfl (List.append_nil _).symm (.inl rfl)
    fun _ _ r member => .inr ⟨r, member, .same, fun _ stamp => stamp⟩

/-- The table of sequences, however it is filled. -/
theorem Stamped.sequences (stamped : Stamped turns sent c t) (own : isSystemName t.name = true)
    (named : t'.name = t.name) (columns : t'.columns = t.columns) : Stamped turns sent c' t' := by
  rcases stamped with ⟨same, none⟩ | ⟨proper, -⟩
  · exact .inl ⟨named.trans same, by simpa only [Table.columnIndex?, columns] using none⟩
  · rw [own] at proper
    cases proper

section Kept

variable (sends : sent call) (turn : turns call answer c c') (all : ∀ t ∈ c.tables, Stamped turns sent c t)

include sends turn all

/-- A call that leaves the tables as they are. -/
theorem stamped_same (same : c'.tables = c.tables) : ∀ t ∈ c'.tables, Stamped turns sent c' t :=
  fun t member => (all t (same ▸ member)).rest sends turn member

/-- A call that puts one table in the place of another. -/
theorem stamped_setTable {other : Table} (put : other ∈ (c.setTable t').tables) (new : other ∈ c'.tables)
    (old : t ∈ c.tables) (named : t'.name = t.name) {more : List TableColumn}
    (columns : t'.columns = t.columns ++ more) (alterable : more = [] ∨ isSystemName t.name = false)
    (records : t' ∈ c'.tables → ∀ i, t.Stamps i → ∀ r' ∈ t'.records,
      (∃ now, Life turns sent c' t' r' now ∧ r'.cells[i]? = some (.integer now)) ∨
        ∃ r ∈ t.records, Leaves call t r r' ∧ ∀ v, r.cells[i]? = some v → r'.cells[i]? = some v) :
    Stamped turns sent c' other := by
  rcases mem_setTable put with rfl | ⟨kept, -⟩
  · exact (all t old).turn sends turn new named columns alterable (records new)
  · exact (all other kept).rest sends turn new

theorem stamped_createTable {name : String} {spec : ColumnSpec}
    (made : Request.createTable name spec = .ok call)
    (executed : Executed c call.params call.statement answer c') : ∀ t ∈ c'.tables, Stamped turns sent c' t := by
  obtain ⟨-, -, rfl⟩ := Request.createTable_eq_ok.mp made
  cases executed with
  | tableKept found => exact stamped_same sends turn all rfl
  | @tableCreated _ _ offset created proper new named declares empty more sequences =>
    intro t member
    rcases List.mem_append.mp member with front | last
    · rcases List.mem_append.mp front with old | new
      · exact (all t old).rest sends turn member
      · rw [List.mem_singleton.mp new]
        obtain ⟨i, stamps⟩ := stamps_declared declares
        refine .inr ⟨proper, i, stamps, fun r record => ?_⟩
        rw [empty] at record
        cases record
    · rw [sequences t last]
      exact .inl ⟨rfl, by decide⟩
  | asked reads => cases reads

theorem stamped_addColumn {table column : String} {definition : ColumnDef}
    (made : Request.addColumn table column definition = .ok call)
    (executed : Executed c call.params call.statement answer c') : ∀ t ∈ c'.tables, Stamped turns sent c' t := by
  obtain ⟨-, rfl⟩ := Request.addColumn_eq_ok.mp made
  cases executed with
  | columnAdded found proper =>
    intro t member
    refine stamped_setTable sends turn all member member (find?_proper found proper).1 rfl rfl
      (.inr proper) fun _ i stamps r' record => ?_
    obtain ⟨r, present, rfl⟩ := List.mem_map.mp record
    refine .inr ⟨r, present, .extended rfl, fun v stamp => ?_⟩
    obtain ⟨bound, -⟩ := List.getElem?_eq_some_iff.mp stamp
    exact (List.getElem?_append_left bound).trans stamp
  | asked reads => cases reads

theorem stamped_createIndex {table column : String} (made : Request.createIndex table column = .ok call)
    (executed : Executed c call.params call.statement answer c') : ∀ t ∈ c'.tables, Stamped turns sent c' t := by
  obtain ⟨-, -, rfl⟩ := Request.createIndex_eq_ok.mp made
  cases executed with
  | indexKept found taken => exact stamped_same sends turn all rfl
  | indexCreated found proper free => exact stamped_same sends turn all rfl
  | asked reads => cases reads

theorem stamped_dropTable {name : String} (made : Request.dropTable name = .ok call)
    (executed : Executed c call.params call.statement answer c') : ∀ t ∈ c'.tables, Stamped turns sent c' t := by
  obtain ⟨-, rfl⟩ := Request.dropTable_eq_ok.mp made
  cases executed with
  | tableMissing missing => exact stamped_same sends turn all rfl
  | @tableDropped _ dropped found =>
    intro t member
    obtain ⟨other, kept, rfl⟩ := List.mem_map.mp member
    obtain ⟨named, columns, records⟩ := forgetting_cases dropped other
    refine (all other (List.mem_filter.mp kept).1).turn sends turn member named
      (columns.trans (List.append_nil _).symm) (.inl rfl) ?_
    exact fun i stamps r record => .inr ⟨r, records.subset record, .same, fun v stamp => stamp⟩
  | asked reads => cases reads

theorem stamped_insert {now : Int64} {table : String} {row : Row}
    (made : Request.insert now table row = .ok call)
    (spared : ∀ c ∈ (Request.stamped now row).names, Text.sameName c addedColumn = true → c = addedColumn)
    (executed : Executed c call.params call.statement answer c') : ∀ t ∈ c'.tables, Stamped turns sent c' t := by
  obtain ⟨-, -, rfl⟩ := Request.insert_eq_ok.mp made
  intro t member
  cases executed with
  | @inserted _ _ old references number changed _ found resolves puts notes =>
    obtain ⟨known, named⟩ := findModifiable_ok found
    have put (new : t ∈ changed.tables) : Stamped turns sent c' t := by
      subst puts
      refine stamped_setTable sends turn all new member known rfl (List.append_nil _).symm (.inl rfl)
        fun there i stamps r record => ?_
      rcases mem_insertRecord.mp record with rfl | present
      · exact .inl ⟨now, .inserted made sends turn there named record, stamps.filled resolves spared⟩
      · exact .inr ⟨r, present, .same, fun v stamp => stamp⟩
    rcases notes with rfl | ⟨n, rfl⟩
    · exact put member
    · -- The number of the record is noted in the table of sequences, which has no stamps.
      rcases mem_setSequence member with new | ⟨own, present, system, same, columns⟩
      · exact put new
      · subst puts
        rcases mem_setTable present with rfl | ⟨other, -⟩
        · exact (all old known).sequences system same columns
        · exact (all own other).sequences system same columns
  | asked reads => cases reads

theorem stamped_update {table : String} {filter : Filter} {row : Row}
    (made : Request.update table filter row = .ok call)
    (spared : ∀ c ∈ row.names, Text.sameName c addedColumn = false)
    (executed : Executed c call.params call.statement answer c') : ∀ t ∈ c'.tables, Stamped turns sent c' t := by
  obtain ⟨-, -, predicate, -, rfl⟩ := Request.update_eq_ok.mp made
  cases executed with
  | updated found resolves assigns =>
    intro t member
    refine stamped_setTable sends turn all member member (findModifiable_ok found).1 rfl
      (List.append_nil _).symm (.inl rfl) fun _ i stamps r' record => ?_
    rcases assignAll_ok assigns record with present | ⟨r, present, assigns⟩
    · exact .inr ⟨r', present, .same, fun v stamp => stamp⟩
    · refine .inr ⟨r, (List.mem_filter.mp present).1, .assigned rfl resolves assigns, ?_⟩
      exact fun v stamp => (stamps.assign resolves spared assigns).trans stamp
  | asked reads => cases reads

theorem stamped_delete {table : String} {filter : Filter} (made : Request.delete table filter = .ok call)
    (executed : Executed c call.params call.statement answer c') : ∀ t ∈ c'.tables, Stamped turns sent c' t := by
  obtain ⟨-, predicate, -, rfl⟩ := Request.delete_eq_ok.mp made
  cases executed with
  | deleted found sublist =>
    intro t member
    refine stamped_setTable sends turn all member member (findModifiable_ok found).1 rfl
      (List.append_nil _).symm (.inl rfl) fun _ i stamps r record => ?_
    exact .inr ⟨r, sublist.subset record, .same, fun v stamp => stamp⟩
  | asked reads => cases reads

/-- A call that asks. -/
theorem stamped_asked (asks : reads call.statement = true)
    (executed : Executed c call.params call.statement answer c') : ∀ t ∈ c'.tables, Stamped turns sent c' t := by
  obtain ⟨kind, statement, params⟩ := call
  cases executed with
  | asked reads => exact stamped_same sends turn all rfl
  | _ => cases asks

end Kept

/-- A call of the store that leaves the stamps alone keeps every table stamped. -/
theorem stamped_turn (made : call.Made) (sends : sent call) (spares : call.SparesStamps)
    (turn : turns call answer c c') (executed : Executed c call.params call.statement answer c')
    (all : ∀ t ∈ c.tables, Stamped turns sent c t) : ∀ t ∈ c'.tables, Stamped turns sent c' t := by
  cases made with
  | createTable made => exact stamped_createTable sends turn all made executed
  | addColumn made => exact stamped_addColumn sends turn all made executed
  | createIndex made => exact stamped_createIndex sends turn all made executed
  | dropTable made => exact stamped_dropTable sends turn all made executed
  | insert made =>
    refine stamped_insert sends turn all made ?_ executed
    obtain ⟨-, -, rfl⟩ := Request.insert_eq_ok.mp made
    exact spares
  | update made =>
    refine stamped_update sends turn all made ?_ executed
    obtain ⟨-, -, predicate, -, rfl⟩ := Request.update_eq_ok.mp made
    exact spares
  | delete made => exact stamped_delete sends turn all made executed
  | tableList => exact stamped_asked sends turn all rfl executed
  | tableInfo made =>
    obtain ⟨-, rfl⟩ := Request.tableInfo_eq_ok.mp made
    exact stamped_asked sends turn all rfl executed
  | select made =>
    obtain ⟨-, -, predicate, -, -, rfl⟩ := Request.select_eq_ok.mp made
    exact stamped_asked sends turn all rfl executed
  | raw kind text params => exact spares.elim

end Database

namespace Session

variable {σ : Type} {backend : Backend σ} {s : Session σ} {p : Progress σ}

/-- A call that is sent is an update only if the operation is, and it assigns to what the caller names. -/
def AssignsGiven (operation : Operation) (call : Call) : Prop :=
  ∀ table columns tests, call.statement = .update table columns tests →
    ∃ filter row, operation = .data (.update table filter row) ∧ columns = row.names

theorem assigns_nothing {operation : Operation} {call : Call}
    (other : ∀ table columns tests, call.statement ≠ .update table columns tests) :
    AssignsGiven operation call := fun table columns tests same => absurd same (other table columns tests)

theorem operate_assigns (s : Session σ) (context : Context) (operation : Operation) :
    (∀ task ∈ (s.operate context operation).2, task.Sends (AssignsGiven operation)) ∧
      SentOnly (AssignsGiven operation) s (s.operate context operation).1 := by
  cases operation with
  | createTable table spec =>
    refine request_sends s context (fun call made => assigns_nothing ?_) trivial
    obtain ⟨-, -, rfl⟩ := Request.createTable_eq_ok.mp made
    simp
  | addColumns table spec =>
    simp only [operate]
    cases checkName table with
    | error e => exact ⟨by simp [refuse, Task.Sends], .refl s⟩
    | ok _ =>
      refine addColumns_sends s context fun e member call made => assigns_nothing ?_
      obtain ⟨-, rfl⟩ := Request.addColumn_eq_ok.mp made
      simp
  | createIndex table column =>
    refine request_sends s context (fun call made => assigns_nothing ?_) trivial
    obtain ⟨-, -, rfl⟩ := Request.createIndex_eq_ok.mp made
    simp
  | dropTable table =>
    simp only [operate]
    cases made : Request.dropTable table with
    | error e => exact ⟨by simp [refuse, Task.Sends], .refl s⟩
    | ok call =>
      obtain ⟨-, rfl⟩ := Request.dropTable_eq_ok.mp made
      exact ⟨by simp [publish, Task.Sends, Continuation.Sends, AssignsGiven], .record s (by simp)⟩
  | tables => exact ⟨by simp [operate, Task.Sends, Continuation.Sends, AssignsGiven, Request.tableList], .refl s⟩
  | schema table =>
    refine request_sends s context (fun call made => assigns_nothing ?_) trivial
    obtain ⟨-, rfl⟩ := Request.tableInfo_eq_ok.mp made
    simp
  | validateSchema table columns =>
    simp only [operate]
    split
    · exact ⟨by simp [refuse, Task.Sends], .refl s⟩
    · refine request_sends s context (fun call made => assigns_nothing ?_) trivial
      obtain ⟨-, rfl⟩ := Request.tableInfo_eq_ok.mp made
      simp
  | data demand =>
    refine request_sends s context (fun call made => ?_) (by cases demand <;> trivial)
    cases demand with
    | insert table row =>
      obtain ⟨-, -, rfl⟩ := Request.insert_eq_ok.mp made
      exact assigns_nothing (by simp)
    | update table filter row =>
      obtain ⟨-, -, predicate, -, rfl⟩ := Request.update_eq_ok.mp made
      rintro table' columns tests same
      cases same
      exact ⟨filter, row, rfl, rfl⟩
    | delete table filter =>
      obtain ⟨-, predicate, -, rfl⟩ := Request.delete_eq_ok.mp made
      exact assigns_nothing (by simp)
    | select spec =>
      obtain ⟨-, -, predicate, -, -, rfl⟩ := Request.select_eq_ok.mp made
      exact assigns_nothing (by simp)

/-- The only operation of the store that sends an update is an update, and it assigns to the columns that
its caller names. If in a run from an empty database none of them is the reserved column, and no row that
is inserted has it in another spelling, then every table of the caller's has a column of stamps, and the
stamp of every record is the time at which the store inserted it, whatever happened to it since. -/
theorem stamps_kept {content : σ → Database.Content} {storage : σ} {scripted : Bool} {now : Int64}
    (executes : backend.Executes content) (run : Later backend (.start storage scripted now, []) p)
    (empty : content storage = default)
    (spared : ∀ call, .sent call ∈ p.1.history → call.SparesStamps) :
    (∀ (s : Session σ) context operation happened, Own backend s (s.operate context operation) happened →
      ∀ call, .sent call ∈ happened → AssignsGiven operation call) ∧
    ∀ t ∈ (content p.1.storage).tables, t.name ≠ Database.sequenceName → ∃ i, t.Stamps i ∧
      ∀ r ∈ t.records, ∃ time, Database.Life (backend.Turns content)
          (fun call => .sent call ∈ p.1.history) (content p.1.storage) t r time ∧
        r.cells[i]? = some (.integer time) := by
  constructor
  · intro s context operation happened own
    obtain ⟨tasks, only⟩ := operate_assigns s context operation
    exact own.sends only.since tasks
  · intro t member different
    let kept (c : Database.Content) : Prop :=
      ∀ t ∈ c.tables, Database.Stamped (backend.Turns content) (fun call => .sent call ∈ p.1.history) c t
    have nothing : kept default := fun t none => nomatch none
    have own (call : Call) (sent : .sent call ∈ p.1.history) (text : String) :
        call.statement ≠ .verbatim text := by
      intro same
      have spares := spared call sent
      rw [Call.SparesStamps, same] at spares
      exact spares
    have stamped : kept (content p.1.storage) := by
      refine run.content executes (.start storage scripted now) nothing own ?_ (empty ▸ nothing)
      exact fun storage call made sent all executed =>
        Database.stamped_turn made sent (spared call sent) ⟨storage, rfl, rfl, rfl⟩ executed all
    rcases stamped t member with ⟨own, -⟩ | ⟨-, column⟩
    · exact absurd own different
    · exact column

/-- Notes that are inserted at one time, then updated, in a table that gets another column. -/
def revised : Progress Database := play Database.memoryBackend 20 (.start .inMemory true 1000, []) [
  .createTable "notes" ["title:text"],
  .insert "notes" (.value (.ofList [("title", .text "a")])),
  .insert "notes" (.value (.ofList [("title", .text "b"), ("added", .integer 5)])),
  .update "notes" (.value ⟨[]⟩) (.value (.ofList [("title", .text "c")])),
  .addColumns "notes" ["line:integer"]]

theorem revised_stamps :
    Database.memoryBackend.Executes (·.content) ∧
    Later Database.memoryBackend (.start .inMemory true 1000, []) revised ∧
    Database.inMemory.content = default ∧
    (∀ call, .sent call ∈ revised.1.history → call.SparesStamps) ∧
    revised.1.storage.content.tables.map (·.records) =
      [[⟨1, [.text "c", .integer 1000, .null]⟩, ⟨2, [.text "c", .integer 1000, .null]⟩]] ∧
    (∀ (s : Session Database) context operation happened,
      Own Database.memoryBackend s (s.operate context operation) happened →
        ∀ call, .sent call ∈ happened → AssignsGiven operation call) ∧
    ∀ t ∈ revised.1.storage.content.tables, t.name ≠ Database.sequenceName → ∃ i, t.Stamps i ∧
      ∀ r ∈ t.records, ∃ time, Database.Life (Database.memoryBackend.Turns (·.content))
          (fun call => .sent call ∈ revised.1.history) revised.1.storage.content t r time ∧
        r.cells[i]? = some (.integer time) := by
  have run : Later Database.memoryBackend (.start .inMemory true 1000, []) revised := later_play ..
  have spared : ∀ call, .sent call ∈ revised.1.history → call.SparesStamps := by
    have calls : ∀ call ∈ revised.1.history.filterMap Happening.sent?, call.SparesStamps := by decide +kernel
    exact fun call sent => calls call (mem_sent.mpr sent)
  exact ⟨executes_memory, run, rfl, spared, by decide +kernel,
    stamps_kept executes_memory run rfl spared⟩

/-- A note whose stamp the caller sets. -/
def backdated : Progress Database := play Database.memoryBackend 20 (.start .inMemory true 1000, []) [
  .createTable "notes" ["title:text"],
  .insert "notes" (.value (.ofList [("title", .text "a")])),
  .update "notes" (.value ⟨[]⟩) (.value (.ofList [("added", .integer 5)]))]

/-- The update is sent, it assigns to the reserved column, and the stamp of the note is no longer the time at
which the store inserted it. -/
theorem stamp_overwritten :
    Later Database.memoryBackend (.start .inMemory true 1000, []) backdated ∧
    backdated.1.history.filterMap (fun h => match h with
      | .sent call => some (call.statement.text, call.params)
      | _ => none) = [
        ("UPDATE notes SET added = ?", [.integer 5]),
        ("INSERT INTO notes (title, added) VALUES (?, ?)", [.text "a", .integer 1000]),
        ("CREATE TABLE IF NOT EXISTS notes (title TEXT, added INTEGER)", [])] ∧
    backdated.1.storage.content.tables.map (·.records) = [[⟨1, [.text "a", .integer 5]⟩]] := by
  refine ⟨later_play .., ?_, ?_⟩
  · decide +kernel
  · decide +kernel

end Session

end LiveTable
