import LiveTable.Proofs.InsertionOrder
import LiveTable.Proofs.Matching

/-!
# The columns of a result

An entry of a projection yields the column that its name stands for, and the star yields all columns. A row
has one value for each name, so result columns of one name become one entry of the row. The columns of a
table have different names, and a result column is named as the table declares it. So nothing is lost exactly
if no two entries of the projection name the same column, however they spell it, and the star stands alone.
-/

namespace LiveTable

/-- The names of the result columns in the selections on a table. -/
structure Heading where
  /-- The columns as the table declares them. -/
  declared : List String
  /-- The result columns of an entry of a projection. -/
  labels : String → List String
  /-- The entry is read as the name of a column. -/
  column : String → Prop
  /-- No two columns have one name, whatever the case of its letters. -/
  distinct : (declared.map Text.lower).Nodup
  star : labels "*" = declared
  named : ∀ entry, entry ≠ "*" → column entry →
    ∃ name ∈ declared, Text.sameName name entry = true ∧ labels entry = [name]

/-- In some state of a storage, the selections on a table come under a heading: what is answered is collected
from what the selection yields, which has the columns of the entries of the projection. -/
def Backend.Shows {σ : Type} (backend : Backend σ) (storage : σ) (table : String) (heading : Heading)
    (result : QuerySpec → ResultSet) : Prop :=
  ∀ spec rows, spec.table = table → backend.Selects storage spec rows →
    rows = (result spec).collect ∧
      (result spec).names = (Request.projection spec.columns).flatMap heading.labels ∧
      ∀ values ∈ (result spec).rows, values.length = (result spec).names.length

/-! ## Rows by names -/

namespace ResultSet

variable {names : List String} {values : List Value}

/-- A row has one entry for each different name. -/
theorem names_keyed (width : values.length = names.length) : (keyed names values).names = names.eraseDups := by
  have holds : Ordered.Holds (keyed names values) (names.zip values) := Ordered.holds_iff.mpr rfl
  rw [holds.order, List.map_fst_zip (Nat.le_of_eq width.symm)]

/-- All values are kept exactly if no two columns have one name. -/
theorem entries_keyed_iff (width : values.length = names.length) :
    (keyed names values).entries = names.zip values ↔ names.Nodup := by
  rw [keyed, Ordered.entries_ofList_iff, List.map_fst_zip (Nat.le_of_eq width.symm)]

end ResultSet

/-! ## Entries of a projection -/

namespace Heading

variable (heading : Heading) {a b : String} {projection : List String}

/-- A name that is spelled like a column is that of the column. -/
theorem eq_of_sameName (here : a ∈ heading.declared) (there : b ∈ heading.declared)
    (same : Text.sameName a b = true) : a = b := by
  rw [Text.sameName, beq_iff_eq] at same
  exact List.inj_on_of_nodup_map heading.distinct here there same

theorem nodup_labels (known : a = "*" ∨ heading.column a) : (heading.labels a).Nodup := by
  by_cases star : a = "*"
  · rw [star, heading.star]
    exact .of_map _ heading.distinct
  · obtain ⟨name, -, -, labels⟩ := heading.named a star (known.resolve_left star)
    rw [labels]
    exact List.nodup_singleton name

/-- Two entries yield no column in common exactly if they name different columns, and neither is the star. -/
theorem disjoint_labels_iff (different : a ≠ b) (known : a = "*" ∨ heading.column a)
    (known' : b = "*" ∨ heading.column b) : List.Disjoint (heading.labels a) (heading.labels b) ↔
      a ≠ "*" ∧ b ≠ "*" ∧ Text.sameName a b = false := by
  by_cases star : a = "*"
  · subst star
    obtain ⟨name, declared, -, labels⟩ :=
      heading.named b different.symm (known'.resolve_left different.symm)
    rw [heading.star, labels]
    exact iff_of_false (fun disjoint => disjoint declared (List.mem_singleton_self _)) fun apart => apart.1 rfl
  obtain ⟨name, declared, spelled, labels⟩ := heading.named a star (known.resolve_left star)
  by_cases star' : b = "*"
  · subst star'
    rw [heading.star, labels]
    exact iff_of_false (fun disjoint => disjoint (List.mem_singleton_self _) declared) fun apart => apart.2.1 rfl
  obtain ⟨name', declared', spelled', labels'⟩ := heading.named b star' (known'.resolve_left star')
  rw [and_iff_right star, and_iff_right star', labels, labels', List.disjoint_singleton, List.mem_singleton,
    ← Bool.not_eq_true]
  refine not_congr ⟨?_, fun same => ?_⟩
  · rintro rfl
    exact sameName_trans (sameName_symm spelled') spelled |> sameName_symm
  · exact heading.eq_of_sameName declared' declared
      (sameName_trans spelled' (sameName_trans (sameName_symm same) (sameName_symm spelled)))

/-- Of entries that are columns or the star, no two yield a column of one name exactly if no two name one
column and the star stands alone. -/
theorem nodup_flatMap_iff (once : projection.Nodup)
    (known : ∀ entry ∈ projection, entry = "*" ∨ heading.column entry) :
    (projection.flatMap heading.labels).Nodup ↔
      projection.Pairwise fun a b => a ≠ "*" ∧ b ≠ "*" ∧ Text.sameName a b = false := by
  rw [List.nodup_flatMap, and_iff_right fun a member => heading.nodup_labels (known a member)]
  constructor
  · intro apart
    refine (apart.and once).imp_of_mem fun {a b} here there both => ?_
    exact (heading.disjoint_labels_iff both.2 (known a here) (known b there)).mp both.1
  · intro apart
    refine (apart.and once).imp_of_mem fun {a b} here there both => ?_
    exact (heading.disjoint_labels_iff both.2 (known a here) (known b there)).mpr both.1

end Heading

/-! ## Tables of a database -/

namespace Database

variable {t : Table} {c c' : Content} {db : Database}

/-- No two columns have one name, whatever the case of its letters. -/
def Table.Distinct (t : Table) : Prop := t.columns.Pairwise fun a b => Text.sameName a.name b.name = false

/-- The result columns of an entry of a projection. -/
def Table.entry (t : Table) (name : String) : List Reference :=
  if name = "*" then t.allReferences else (t.reference? name).toList

/-- A reference to a column has the name that the table declares. -/
theorem referenceName_column (t : Table) {i : Nat} (bound : i < t.columns.length) :
    t.referenceName (if t.numberColumn? = some i then .number else .cell i) = t.columns[i].name := by
  have column : t.column i = t.columns[i] := by simp [Table.column, List.getElem?_eq_getElem bound]
  split
  · rename_i number
    simp only [Table.referenceName, Table.numberName, number, column]
  · rw [Table.referenceName, column]

theorem names_allReferences (t : Table) : t.allReferences.map t.referenceName = t.columns.map (·.name) := by
  refine List.ext_getElem (by simp [Table.allReferences]) fun i here there => ?_
  simp only [Table.allReferences, List.getElem_map, List.getElem_range]
  exact referenceName_column t (by simpa using there)

/-- The heading of a table whose columns have different names. A word for the time is not read as a column. -/
def Table.heading (t : Table) (distinct : t.Distinct) : Heading where
  declared := t.columns.map (·.name)
  labels name := (t.entry name).map t.referenceName
  column name := (t.columnIndex? name).isSome = true ∧ isTimeWord name = false
  distinct := by
    rw [List.map_map, List.Nodup, List.pairwise_map]
    refine distinct.imp fun apart same => ?_
    rw [Text.sameName, beq_eq_false_iff_ne] at apart
    exact apart same
  star := show (t.entry "*").map t.referenceName = t.columns.map (·.name) from names_allReferences t
  named := by
    rintro name other ⟨column, plain⟩
    obtain ⟨i, found⟩ := Option.isSome_iff_exists.mp column
    obtain ⟨bound, named, -⟩ := List.findIdx?_eq_some_iff_getElem.mp found
    refine ⟨t.columns[i].name, List.mem_map_of_mem (List.getElem_mem bound), named, ?_⟩
    rw [Table.entry, if_neg other, reference?_column found plain]
    exact congrArg (fun name => [name]) (referenceName_column t bound)

/-- What a selection through the store yields. -/
def yielded (db : Database) (spec : QuerySpec) : ResultSet :=
  let statement := .select (Request.projection spec.columns) spec.table (testsOf spec.filter.clauses)
    spec.order.keys
  match db.content.select statement (Request.projection spec.columns) spec.table
    (testsOf spec.filter.clauses) spec.order.keys (paramsOf spec.filter.clauses) with
  | .ok result => result
  | .error _ => ⟨[], []⟩

theorem resolveProjection_ok {s : Statement} {skip : Nat} {projection : List String}
    {references : List Reference} (resolves : resolveProjection t s skip projection = .ok references) :
    references = projection.flatMap t.entry := by
  induction projection generalizing skip references with
  | nil =>
    cases resolves
    rfl
  | cons name rest ih =>
    unfold resolveProjection at resolves
    rw [List.flatMap_cons, Table.entry]
    split at resolves
    · rename_i star
      obtain ⟨others, later, same⟩ := bind_eq_ok.mp resolves
      cases same
      rw [if_pos star, ih later]
    · rename_i named
      split at resolves
      · rename_i reference refers
        obtain ⟨others, later, same⟩ := bind_eq_ok.mp resolves
        cases same
        rw [if_neg named, refers, ih later]
        rfl
      · cases resolves

/-- A database in memory shows every table whose columns have different names under its heading. -/
theorem shows_memory {table : String} (found : db.content.find? table = some t) (distinct : t.Distinct) :
    memoryBackend.Shows db table (t.heading distinct) db.yielded := by
  rintro spec rows rfl ⟨call, made, yields⟩
  obtain ⟨-, -, predicate, translated, -, rfl⟩ := Request.select_eq_ok.mp made
  cases ofFilter_ok translated
  obtain ⟨db', done, -⟩ := answer_ok rfl (by simp) yields
  obtain ⟨result, selected, same⟩ := bind_eq_ok.mp done
  cases same
  have shown : db.yielded spec = result := by
    have selected : db.content.select _ _ spec.table _ _ _ = .ok result := selected
    rw [yielded, selected]
  obtain ⟨t', references, resolved, order, known, projects, -, rfl⟩ := select_ok selected
  cases found.symm.trans known
  rw [shown]
  refine ⟨rfl, ?_, fun values member => ?_⟩
  · rw [resolveProjection_ok projects, List.map_flatMap]
    rfl
  · obtain ⟨r, -, rfl⟩ := List.mem_map.mp member
    rw [List.length_map, List.length_map]

/-! ## Columns of different names -/

/-- The tables of a content have columns of different names. -/
def Apart (c : Content) : Prop := ∀ t ∈ c.tables, t.Distinct

theorem apart_setTable (apart : Apart c) (distinct : t.Distinct) : Apart (c.setTable t) := by
  intro other member
  rcases mem_setTable member with rfl | ⟨old, -⟩
  · exact distinct
  · exact apart other old

/-- Other records in a table that is there. -/
theorem apart_records (apart : Apart c) {table : String} (found : c.findModifiable table = .ok t)
    (records : List Record) : Apart (c.setTable { t with records }) := by
  have distinct : t.Distinct := apart t (findModifiable_ok found).1
  exact apart_setTable apart distinct

theorem apart_setSequence (apart : Apart c) (table : String) (n : Int64) : Apart (c.setSequence table n) := by
  intro other member
  rcases mem_setSequence member with old | ⟨t, there, -, -, columns⟩
  · exact apart other old
  · rw [Table.Distinct, columns]
    exact apart t there

theorem distinct_sequenceTable : sequenceTable.Distinct :=
  List.pairwise_cons.mpr ⟨by decide, List.pairwise_singleton ..⟩

/-- A column is added only if its name is new. -/
theorem apart_addColumn {s : Statement} {table column : String} {d : ColumnDef} (apart : Apart c)
    (accepted : c.addColumn s table column d = .ok c') : Apart c' := by
  simp only [Content.addColumn, guard_eq_ok] at accepted
  obtain ⟨-, accepted⟩ := accepted
  split at accepted
  · cases accepted
  · rename_i t found
    simp only [guard_eq_ok, bind_eq_ok] at accepted
    obtain ⟨proper, -, -, added, declares, -, -, same⟩ := accepted
    cases same
    obtain ⟨rfl, new⟩ := declare_ok declares
    refine apart_setTable apart (List.pairwise_append.mpr ⟨?_, List.pairwise_singleton .., ?_⟩)
    · exact apart t (find?_proper found (Bool.eq_false_iff.mpr proper)).1
    · intro old member last same
      rw [List.mem_singleton.mp same]
      exact new old member

theorem apart_executed {db db' : Database} {s : Statement} {params : List Value} {answer : Answer}
    (accepted : db.execute params s = .ok (answer, db')) (apart : Apart db.content) : Apart db'.content := by
  have effect := executed accepted
  generalize shape : db'.content = c' at effect
  cases effect with
  | tableCreated proper new named declares empty sequences =>
    intro other member
    rcases List.mem_append.mp member with front | last
    · rcases List.mem_append.mp front with old | fresh
      · exact apart other old
      · rw [List.mem_singleton.mp fresh]
        exact (declareAll_ok declares).2 .nil
    · rw [sequences other last]
      exact distinct_sequenceTable
  | columnAdded found proper =>
    obtain ⟨added, adds, same⟩ := bind_eq_ok.mp accepted
    cases same
    exact shape ▸ apart_addColumn apart adds
  | @tableDropped _ dropped found =>
    intro other member
    obtain ⟨old, kept, rfl⟩ := List.mem_map.mp member
    rw [Table.Distinct, (forgetting_cases dropped old).2.1]
    exact apart old (List.mem_filter.mp kept).1
  | @inserted table columns t references number changed _ found resolves puts notes =>
    have put : Apart changed := puts ▸ apart_records apart found _
    rcases notes with rfl | ⟨n, rfl⟩
    · exact put
    · exact apart_setSequence put t.name n
  | updated found resolves assigns => exact apart_records apart found _
  | deleted found sublist => exact apart_records apart found _
  | _ => exact apart

theorem apart_answer {db : Database} (call : Call) (apart : Apart db.content) :
    Apart (db.answer call).2.content := by
  unfold answer
  split
  · rename_i result accepted
    exact apart_executed accepted apart
  · exact apart

/-- The schema, too, has columns of different names. -/
theorem distinct_find? (apart : Apart c) {table : String} (found : c.find? table = some t) : t.Distinct := by
  unfold Content.find? at found
  split at found
  · cases found
    simp only [Table.Distinct, Content.schemaTable]
    decide
  · exact apart t (List.mem_of_find?_eq_some found)

end Database

/-- In a run in memory from an empty database the columns of every table have different names. -/
theorem Session.Later.distinct {db : Database} {p : Progress Database} {scripted : Bool} {now : Int64}
    (run : Later Database.memoryBackend (.start db scripted now, []) p) (empty : db.content = default)
    {table : String} {t : Database.Table} (found : p.1.storage.content.find? table = some t) : t.Distinct := by
  have nothing : Database.Apart default := fun t none => nomatch none
  have apart : Database.Apart p.1.storage.content := by
    refine run.maintains (fun db => Database.Apart db.content) (.start db scripted now) ?_ ?_ (empty ▸ nothing)
    · intro old new opens _
      cases opens
      exact nothing
    · exact fun db call _ _ => Database.apart_answer call
  exact Database.distinct_find? apart found

/-! ## What a row has -/

/-- Where a row has all that was asked for. A row of a selection has one entry for each different name of a
result column. It has one for each result column, in order and with the value of that column, exactly if no
two of them have one name. If the entries of the projection are columns or the star, this is so exactly if no
two name one column, in whatever case, and the star stands alone; but the store refuses only entries that are
spelled alike. -/
theorem result_columns {σ : Type} {backend : Backend σ} {storage : σ} {heading : Heading}
    {result : QuerySpec → ResultSet} {spec : QuerySpec} {rows : List Row}
    (shows : backend.Shows storage spec.table heading result) (selects : backend.Selects storage spec rows) :
    spec.columns.Nodup ∧
    rows = (result spec).rows.map (ResultSet.keyed (result spec).names) ∧
    (∀ values ∈ (result spec).rows,
      (ResultSet.keyed (result spec).names values).names = (result spec).names.eraseDups ∧
      ((ResultSet.keyed (result spec).names values).entries = (result spec).names.zip values ↔
        (result spec).names.Nodup)) ∧
    ((∀ entry ∈ Request.projection spec.columns, entry = "*" ∨ heading.column entry) →
      ((result spec).names.Nodup ↔ (Request.projection spec.columns).Pairwise fun a b =>
        a ≠ "*" ∧ b ≠ "*" ∧ Text.sameName a b = false)) := by
  obtain ⟨collected, names, widths⟩ := shows spec rows rfl selects
  obtain ⟨call, made, -⟩ := selects
  have once := (checkProjection_eq_ok.mp (Request.select_eq_ok.mp made).2.1).2.1
  refine ⟨once, collected, fun values member => ?_, fun known => ?_⟩
  · exact ⟨ResultSet.names_keyed (widths values member), ResultSet.entries_keyed_iff (widths values member)⟩
  · have once' : (Request.projection spec.columns).Nodup := by
      unfold Request.projection
      split
      · exact List.nodup_singleton _
      · exact once
    rw [names]
    exact heading.nodup_flatMap_iff once' known

namespace Database

/-- Three columns of the notes, one of them in capitals. -/
def noteColumns : QuerySpec := ⟨"notes", ["PRIORITY", "added", "title"], .empty, .empty⟩

theorem distinct_noteTable : noteTable.Distinct := by
  have run : Session.Later memoryBackend (.start .inMemory true 1000, []) notes := Session.later_play ..
  have found : notes.1.storage.content.find? "notes" = some noteTable := by rw [storage_notes]; rfl
  exact run.distinct rfl found

/-- The rows of the notes have all three, in this order, under the names of the table. -/
theorem result_columns_notes : memoryBackend.Shows notes.1.storage "notes"
      (noteTable.heading distinct_noteTable) notes.1.storage.yielded ∧
    (notes.1.storage.yielded noteColumns).names = ["priority", "added", "title"] ∧
    ∃ rows, memoryBackend.Selects notes.1.storage noteColumns rows ∧
      rows.map (·.entries) = (notes.1.storage.yielded noteColumns).rows.map
        ((notes.1.storage.yielded noteColumns).names.zip ·) := by
  rw [storage_notes]
  have shows : memoryBackend.Shows noteStore "notes" _ noteStore.yielded := shows_memory rfl distinct_noteTable
  obtain ⟨rows, selects⟩ : ∃ rows, memoryBackend.Selects noteStore noteColumns rows := ⟨_, _, rfl, rfl⟩
  obtain ⟨-, rfl, kept, apart⟩ := result_columns shows selects
  have once := (apart (by simp only [Table.heading]; decide +kernel)).mpr (by decide +kernel)
  refine ⟨shows, by decide +kernel, _, selects, ?_⟩
  rw [List.map_map]
  exact List.map_congr_left fun values member => (kept values member).2.mpr once

/-- A column in two spellings. -/
def titleTwice : QuerySpec := ⟨"notes", ["title", "TITLE"], .empty, .empty⟩

/-- Both result columns have one name, and each of the four rows has one entry for them. -/
theorem title_lost : ∃ rows, memoryBackend.Selects noteStore titleTwice rows ∧ rows.length = 4 ∧
    (noteStore.yielded titleTwice).names = ["title", "title"] ∧
    (∀ values ∈ (noteStore.yielded titleTwice).rows, values.length = 2) ∧
    ∀ row ∈ rows, row.names = ["title"] := by
  have shows : memoryBackend.Shows noteStore "notes" _ noteStore.yielded := shows_memory rfl distinct_noteTable
  obtain ⟨rows, selects⟩ : ∃ rows, memoryBackend.Selects noteStore titleTwice rows := ⟨_, _, rfl, rfl⟩
  obtain ⟨rfl, -, widths⟩ := shows titleTwice rows rfl selects
  have names : (noteStore.yielded titleTwice).names = ["title", "title"] := by decide +kernel
  obtain ⟨order, cells, shape⟩ : ∃ order cells,
      (noteStore.yielded titleTwice).rows = (noteTable.records.mergeSort order).map cells := ⟨_, _, rfl⟩
  refine ⟨_, selects, ?_, names, fun values member => (widths values member).trans (by rw [names]; rfl),
    fun row member => ?_⟩
  · rw [ResultSet.collect, List.length_map, shape, List.length_map, List.length_mergeSort]
    rfl
  · obtain ⟨values, there, rfl⟩ := List.mem_map.mp member
    rw [ResultSet.names_keyed (widths values there), names]
    decide

end Database

end LiveTable
