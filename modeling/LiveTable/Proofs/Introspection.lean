import LiveTable.Proofs.Conditions
import LiveTable.Proofs.Validation

/-!
# The columns that a storage reports

A storage reports the columns of a table in rows, one for each column. A report is read if every row has a
value of the right kind in each field that it must have, and then it is read row by row; otherwise the first
field at fault in the first row at fault is the error. A check of column names looks them up among the names
that are reported.
-/

namespace LiveTable

namespace Catalog

/-- What a field of a report holds. -/
inductive Kind
  | integer
  | text

/-- The fields that a row about a column must have, in the order in which they are read. -/
def columnFields : List (String × Kind) :=
  [("cid", .integer), ("name", .text), ("type", .text), ("notnull", .integer), ("pk", .integer)]

/-- The row has a value of the right kind in a field. -/
inductive Has (row : Row) : String × Kind → Prop
  | integer {field : String} {n : Int64} (found : row.get? field = some (.integer n)) : Has row (field, .integer)
  | text {field : String} {s : String} (found : row.get? field = some (.text s)) : Has row (field, .text)

/-- The row has every field that it must have. -/
def Complete (row : Row) : Prop := ∀ field ∈ columnFields, Has row field

/-- The first of the fields that the row has not, or not with a value of the right kind. -/
inductive FirstLack (row : Row) : List (String × Kind) → String → Prop
  | here {field : String} {kind : Kind} {rest : List (String × Kind)} (lacks : ¬ Has row (field, kind)) :
    FirstLack row ((field, kind) :: rest) field
  | later {first : String × Kind} {rest : List (String × Kind)} {field : String} (has : Has row first)
    (lack : FirstLack row rest field) : FirstLack row (first :: rest) field

/-- The first field at fault in the first row at fault. -/
def FirstFault (rows : List Row) (field : String) : Prop :=
  ∃ before row after, rows = before ++ row :: after ∧ (∀ r ∈ before, Complete r) ∧ FirstLack row columnFields field

end Catalog

/-- The row is about the column: each field of the column is what the row says. A default that is missing or
null is none. -/
structure ColumnInfo.Describes (row : Row) (c : ColumnInfo) : Prop where
  position : row.get? "cid" = some (.integer c.position)
  name : row.get? "name" = some (.text c.name)
  declaredType : row.get? "type" = some (.text c.declaredType)
  notNull : ∃ n, row.get? "notnull" = some (.integer n) ∧ (c.notNull = true ↔ n ≠ 0)
  defaultValue : c.defaultValue = none ∧ (row.get? "dflt_value" = none ∨ row.get? "dflt_value" = some .null) ∨
    ∃ v, v ≠ .null ∧ row.get? "dflt_value" = some v ∧ c.defaultValue = some v.display
  primaryKey : row.get? "pk" = some (.integer c.primaryKey)

/-! ## One field -/

namespace Catalog

variable {α β : Type} {row : Row} {field : String} {kind : Kind} {rest : List (String × Kind)}

theorem integer_eq_ok {n : Int64} : integer row field = .ok n ↔ row.get? field = some (.integer n) := by
  unfold integer
  cases found : row.get? field with
  | none => simp
  | some v => cases v <;> simp [Value.asInt?]

theorem text_eq_ok {s : String} : text row field = .ok s ↔ row.get? field = some (.text s) := by
  unfold text
  cases found : row.get? field with
  | none => simp
  | some v => cases v <;> simp [Value.asText?]

/-- A field is read if the row has it, and named if the row lacks it. -/
structure ReadsField (row : Row) (field : String × Kind) (result : Except Error α) : Prop where
  has : Has row field → ∃ a, result = .ok a
  lacks : ¬ Has row field → result = .error (badColumn field.1)

theorem reads_integer (row : Row) (field : String) : ReadsField row (field, .integer) (integer row field) where
  has := fun has => by
    cases has with
    | integer found => exact ⟨_, integer_eq_ok.mpr found⟩
  lacks lacks := by
    unfold integer
    split
    · rename_i n found
      have read : integer row field = .ok n := by rw [integer, found]
      exact absurd (.integer (integer_eq_ok.mp read)) lacks
    · rfl

theorem reads_text (row : Row) (field : String) : ReadsField row (field, .text) (text row field) where
  has := fun has => by
    cases has with
    | text found => exact ⟨_, text_eq_ok.mpr found⟩
  lacks lacks := by
    unfold text
    split
    · rename_i s found
      have read : text row field = .ok s := by rw [text, found]
      exact absurd (.text (text_eq_ok.mp read)) lacks
    · rfl

/-- A field is read before the fields behind it are. -/
theorem ReadsField.bind {x : Except Error α} {f : α → Except Error β} {first : String × Kind}
    (reads : ReadsField row first x) (lack : FirstLack row (first :: rest) field)
    (next : ∀ a, FirstLack row rest field → f a = .error (badColumn field)) :
    (x >>= f) = .error (badColumn field) := by
  cases lack with
  | here lacks =>
    rw [reads.lacks lacks]
    rfl
  | later has lack =>
    obtain ⟨a, rfl⟩ := reads.has has
    exact next a lack

theorem has_or_lacks (row : Row) (fields : List (String × Kind)) :
    (∀ field ∈ fields, Has row field) ∨ ∃ field, FirstLack row fields field := by
  induction fields with
  | nil => exact .inl (List.forall_mem_nil _)
  | cons first rest ih =>
    by_cases has : Has row first
    · rcases ih with all | ⟨field, lack⟩
      · exact .inl (List.forall_mem_cons.mpr ⟨has, all⟩)
      · exact .inr ⟨field, .later has lack⟩
    · exact .inr ⟨first.1, .here has⟩

end Catalog

/-! ## One row -/

namespace ColumnInfo

open Catalog

variable {row : Row} {c : ColumnInfo} {field : String}

theorem defaultOf_cases (row : Row) :
    defaultOf row = none ∧ (row.get? "dflt_value" = none ∨ row.get? "dflt_value" = some .null) ∨
      ∃ v, v ≠ .null ∧ row.get? "dflt_value" = some v ∧ defaultOf row = some v.display := by
  unfold defaultOf
  split
  · rename_i missing
    exact .inl ⟨rfl, .inl missing⟩
  · rename_i null
    exact .inl ⟨rfl, .inr null⟩
  · rename_i v other found
    exact .inr ⟨v, other, found, rfl⟩

theorem describes_of_ofRow (read : ofRow row = .ok c) : Describes row c := by
  simp only [ofRow, bind_eq_ok, integer_eq_ok, text_eq_ok] at read
  obtain ⟨position, cid, name, named, declaredType, typed, notNull, required, primaryKey, pk, same⟩ := read
  cases same
  exact ⟨cid, named, typed, ⟨notNull, required, by simp⟩, defaultOf_cases row, pk⟩

theorem exists_ofRow (complete : Complete row) : ∃ c, ofRow row = .ok c := by
  simp only [Complete, columnFields, List.forall_mem_cons] at complete
  obtain ⟨cid, name, type, notnull, pk, -⟩ := complete
  obtain ⟨position, cid⟩ := (reads_integer row "cid").has cid
  obtain ⟨name, named⟩ := (reads_text row "name").has name
  obtain ⟨declaredType, typed⟩ := (reads_text row "type").has type
  obtain ⟨notNull, required⟩ := (reads_integer row "notnull").has notnull
  obtain ⟨primaryKey, pk⟩ := (reads_integer row "pk").has pk
  rw [ofRow, cid, named, typed, required, pk]
  exact ⟨_, rfl⟩

theorem Describes.complete (describes : Describes row c) : Complete row := by
  obtain ⟨n, required, -⟩ := describes.notNull
  simp only [Complete, columnFields, List.forall_mem_cons]
  exact ⟨.integer describes.position, .text describes.name, .text describes.declaredType, .integer required,
    .integer describes.primaryKey, List.forall_mem_nil _⟩

/-- The first field that a row lacks is the error. -/
theorem ofRow_eq_error (lack : FirstLack row columnFields field) : ofRow row = .error (badColumn field) :=
  (reads_integer row "cid").bind lack fun _ lack =>
  (reads_text row "name").bind lack fun _ lack =>
  (reads_text row "type").bind lack fun _ lack =>
  (reads_integer row "notnull").bind lack fun _ lack =>
  (reads_integer row "pk").bind lack fun _ lack => nomatch lack

/-! ## Whole reports -/

variable {rows : List Row}

theorem complete_or_fault (rows : List Row) :
    (∀ row ∈ rows, Complete row) ∨ ∃ field, FirstFault rows field := by
  induction rows with
  | nil => exact .inl (List.forall_mem_nil _)
  | cons row rest ih =>
    rcases has_or_lacks row columnFields with complete | ⟨field, lack⟩
    · rcases ih with all | ⟨field, before, faulty, after, rfl, passed, lack⟩
      · exact .inl (List.forall_mem_cons.mpr ⟨complete, all⟩)
      · exact .inr ⟨field, row :: before, faulty, after, rfl, List.forall_mem_cons.mpr ⟨complete, passed⟩, lack⟩
    · exact .inr ⟨field, [], row, rest, rfl, List.forall_mem_nil _, lack⟩

/-- A report is read row by row if its rows are complete. -/
theorem mapM_ofRow_eq_ok (complete : ∀ row ∈ rows, Complete row) :
    ∃ columns, rows.mapM ofRow = .ok columns ∧ List.Forall₂ Describes rows columns := by
  have reads : ∃ columns, List.Forall₂ (fun row c => ofRow row = .ok c) rows columns := by
    induction rows with
    | nil => exact ⟨[], .nil⟩
    | cons row rest ih =>
      rw [List.forall_mem_cons] at complete
      obtain ⟨c, read⟩ := exists_ofRow complete.1
      obtain ⟨columns, reads⟩ := ih complete.2
      exact ⟨c :: columns, .cons read reads⟩
  obtain ⟨columns, reads⟩ := reads
  exact ⟨columns, mapM_eq_ok.mpr reads, reads.imp fun _ _ => describes_of_ofRow⟩

/-- The first fault of a report is the error. -/
theorem mapM_ofRow_eq_error (fault : FirstFault rows field) : rows.mapM ofRow = .error (badColumn field) := by
  obtain ⟨before, row, after, same, passed, lack⟩ := fault
  exact mapM_eq_error.mpr
    ⟨before, row, after, same, fun r member => exists_ofRow (passed r member), ofRow_eq_error lack⟩

theorem complete_of_describes {columns : List ColumnInfo} (described : List.Forall₂ Describes rows columns) :
    ∀ row ∈ rows, Complete row := by
  intro row member
  obtain ⟨c, -, describes⟩ := exists_related described member
  exact describes.complete

/-- Names are covered by columns if the rows about these have them. -/
theorem covers_iff {columns : List ColumnInfo} (described : List.Forall₂ Describes rows columns)
    (expected : List String) : coversColumns columns expected = true ↔
      ∀ name ∈ expected, ∃ row ∈ rows, row.get? "name" = some (.text name) := by
  have named (name : String) :
      (∃ c ∈ columns, c.name = name) ↔ ∃ row ∈ rows, row.get? "name" = some (.text name) := by
    constructor
    · rintro ⟨c, member, rfl⟩
      obtain ⟨row, there, describes⟩ := exists_related described.flip member
      exact ⟨row, there, describes.name⟩
    · rintro ⟨row, member, found⟩
      obtain ⟨c, there, describes⟩ := exists_related described member
      have same : some (Value.text c.name) = some (.text name) := describes.name.symm.trans found
      cases same
      exact ⟨c, there, rfl⟩
  simp [coversColumns, named]

end ColumnInfo

namespace Session

open Catalog ColumnInfo

variable {σ : Type} {backend : Backend σ} {s : Session σ} {context : Context} {happened : List Happening}

/-- The call that asks for the columns of a table. -/
def columnsCall (table : String) : Call := ⟨.query, .tableInfo table, []⟩

/-- An operation whose one statement is read as it comes back. -/
theorem Own.concluded {call : Call} {reading : Reading}
    (own : Own backend s (s, [.send call (.conclude reading context)]) happened) :
    ∃ answer, happened = [.sent call, .returned call answer,
      .finished context (.ofExcept id (reading.outcome answer))] := by
  obtain ⟨after, answer, rest, split, own⟩ := own.send
  refine ⟨answer, ?_⟩
  rw [split, own.resume_conclude, since_of_same rfl]
  rfl

/-- An operation asks for the columns of a table with one statement. A failure of the storage is passed on as
it is, and of a report that is not complete the first fault is the error. -/
structure Asks (table : String) (context : Context) (happened : List Happening) (answer : Answer)
    (outcome : Outcome) : Prop where
  happened : happened =
    [.sent (columnsCall table), .returned (columnsCall table) answer, .finished context outcome]
  failed : ∀ message, answer = .failed message → outcome = .failed (.store (.storage message))
  fault : ∀ rows, answer = .rows rows → (¬ ∀ row ∈ rows, Complete row) → ∃ field, FirstFault rows field ∧
    outcome = .failed (.store (.storage ("Invalid column name: " ++ field)))

/-- Both operations on the columns of a table ask for them. -/
theorem Own.asks {table : String} (named : Plain table) {reading : Reading}
    (reads : ∀ rows e, rows.mapM ColumnInfo.ofRow = .error e → reading.outcome (.rows rows) = .error e)
    (own : Own backend s (s.request context (Request.tableInfo table) (.conclude reading context)) happened) :
    ∃ answer, Asks table context happened answer (.ofExcept id (reading.outcome answer)) := by
  have accepted : Request.tableInfo table = .ok (columnsCall table) :=
    Request.tableInfo_eq_ok.mpr ⟨checkName_eq_ok.mpr (isIdentifier_iff.mpr named), rfl⟩
  rw [accepted, Session.request] at own
  obtain ⟨answer, happened⟩ := own.concluded
  refine ⟨answer, happened, ?_, ?_⟩
  · rintro message rfl
    rw [outcome_failed]
    rfl
  · rintro rows rfl incomplete
    obtain ⟨field, fault⟩ := (complete_or_fault rows).resolve_left incomplete
    refine ⟨field, fault, ?_⟩
    rw [reads rows _ (mapM_ofRow_eq_error fault)]
    rfl

/-- A list of columns and a check of it are exact on every report, whatever rows a storage reports. Both ask for
the columns with one statement. The columns are those of the rows, one for each, exactly if every row is
complete, and then the check holds exactly if every expected name is the name in some row; otherwise the first
fault is the error of both. A check of no names is refused before the name of the table is looked at. -/
theorem columns_reported (backend : Backend σ) (table : String) :
    (Plain table → (columnsCall table).statement.text = "PRAGMA table_info(" ++ table ++ ")" ∧
      ∀ (s : Session σ) context,
        ((∃ happened, Own backend s (s.operate context (.schema table)) happened) ∧
          ∀ happened, Own backend s (s.operate context (.schema table)) happened →
            ∃ answer outcome, Asks table context happened answer outcome ∧ ∀ rows, answer = .rows rows →
              ((∃ columns, outcome = .columns columns ∧ List.Forall₂ Describes rows columns) ↔
                ∀ row ∈ rows, Complete row)) ∧
        ∀ expected, expected ≠ [] →
          (∃ happened, Own backend s (s.operate context (.validateSchema table expected)) happened) ∧
          ∀ happened, Own backend s (s.operate context (.validateSchema table expected)) happened →
            ∃ answer outcome, Asks table context happened answer outcome ∧ ∀ rows, answer = .rows rows →
              (∀ row ∈ rows, Complete row) → ∃ holds, outcome = .flag holds ∧
                (holds = true ↔ ∀ name ∈ expected, ∃ row ∈ rows, row.get? "name" = some (.text name))) ∧
    (∀ (s : Session σ) context, s.operate context (.validateSchema table []) =
        (s, [.conclude context (.failed (.store (.emptySchema table)))]) ∧
      ∀ happened, Own backend s (s.operate context (.validateSchema table [])) happened →
        happened = [.finished context (.failed (.store (.emptySchema table)))]) ∧
    ∀ (s : Session σ) context command operation, Command.Calls command operation →
      s.ask backend context command = (s.record (.asked command)).operate context operation := by
  refine ⟨fun named => ⟨by simp [columnsCall, Statement.text, Statement.pieces, Statement.Piece.text, String.append_assoc],
    fun s context => ⟨⟨own_exists s _ _, fun happened own => ?_⟩,
      fun expected nonempty => ⟨own_exists s _ _, fun happened own => ?_⟩⟩⟩,
    fun s context => ⟨rfl, fun happened own => own.refused⟩,
    fun s context command operation calls => ask_operate backend s context calls⟩
  · have reads (rows : List Row) (e : Error) (failed : rows.mapM ofRow = .error e) :
        Reading.columns.outcome (.rows rows) = .error e := by
      simp [Reading.outcome, Answer.toRows, Except.bind, Except.map, failed]
    obtain ⟨answer, asks⟩ := Own.asks named reads own
    refine ⟨answer, _, asks, ?_⟩
    rintro rows rfl
    constructor
    · rintro ⟨columns, -, described⟩
      exact complete_of_describes described
    · intro complete
      obtain ⟨columns, read, described⟩ := mapM_ofRow_eq_ok complete
      refine ⟨columns, ?_, described⟩
      simp [Reading.outcome, Answer.toRows, Except.bind, Except.map, read, Outcome.ofExcept]
  · rw [operate, if_neg (by simpa using nonempty)] at own
    have reads (rows : List Row) (e : Error) (failed : rows.mapM ofRow = .error e) :
        (Reading.covers expected).outcome (.rows rows) = .error e := by
      simp [Reading.outcome, Answer.toRows, Except.bind, Except.map, failed]
    obtain ⟨answer, asks⟩ := Own.asks named reads own
    refine ⟨answer, _, asks, ?_⟩
    rintro rows rfl complete
    obtain ⟨columns, read, described⟩ := mapM_ofRow_eq_ok complete
    refine ⟨coversColumns columns expected, ?_, covers_iff described expected⟩
    simp [Reading.outcome, Answer.toRows, Except.bind, Except.map, read, Outcome.ofExcept]

/-- A row about a column, with its fields in another order and one more. -/
def titleReport : Row := .ofList [("pk", .integer 0), ("name", .text "title"), ("hidden", .integer 0),
  ("dflt_value", .integer 5), ("type", .text "TEXT"), ("notnull", .integer 1), ("cid", .integer 0)]

/-- A row with two faults: no text is its type, and no integer tells whether nulls are allowed. -/
def bodyReport : Row := .ofList [("cid", .integer 1), ("notnull", .text "1"), ("name", .text "body"),
  ("type", .null), ("pk", .integer 0)]

/-- A session whose storage reports these rows. -/
def reporting (rows : List Row) : Session Unit := { start () true 0 with replies := [.rows rows] }

/-- What happens when the report comes back. -/
def reportHappened (rows : List Row) (outcome : Outcome) : List Happening :=
  [.sent (columnsCall "notes"), .returned (columnsCall "notes") (.rows rows), .finished .top outcome]

theorem asks_reportHappened {rows : List Row} {answer : Answer} {outcome outcome' : Outcome}
    (asks : Asks "notes" .top (reportHappened rows outcome) answer outcome') :
    answer = .rows rows ∧ outcome' = outcome := by
  have same := asks.happened
  simp only [reportHappened, List.cons.injEq, Happening.returned.injEq, Happening.finished.injEq, true_and,
    and_true] at same
  exact ⟨same.1.symm, same.2.symm⟩

/-- One complete row is one column, which a check finds. A row with two faults behind it is an error: the first
of them. -/
theorem title_reported : Plain "notes" ∧ ["title"] ≠ [] ∧ (∀ row ∈ [titleReport], Complete row) ∧
    (∃ columns, Own .mute (reporting [titleReport]) ((reporting [titleReport]).operate .top (.schema "notes"))
        (reportHappened [titleReport] (.columns columns)) ∧ List.Forall₂ Describes [titleReport] columns) ∧
    (Own .mute (reporting [titleReport]) ((reporting [titleReport]).operate .top (.validateSchema "notes" ["title"]))
        (reportHappened [titleReport] (.flag true)) ∧
      ∀ name ∈ ["title"], ∃ row ∈ [titleReport], row.get? "name" = some (.text name)) ∧
    (Own .mute (reporting [titleReport, bodyReport])
        ((reporting [titleReport, bodyReport]).operate .top (.schema "notes"))
        (reportHappened [titleReport, bodyReport] (.failed (.store (.storage "Invalid column name: type")))) ∧
      ∃ field, FirstFault [titleReport, bodyReport] field ∧
        "Invalid column name: type" = "Invalid column name: " ++ field) ∧
    ∃ happened, Own .mute (start () true 0) ((start () true 0).operate .top (.validateSchema "1st" [])) happened ∧
      happened = [.finished .top (.failed (.store (.emptySchema "1st")))] := by
  have notes : Plain "notes" := isIdentifier_iff.mp (by decide)
  have title : ["title"] ≠ [] := List.cons_ne_nil _ _
  have read : ofRow titleReport = .ok ⟨0, "title", "TEXT", true, some "5", 0⟩ := by decide
  have complete : ∀ row ∈ [titleReport], Complete row := by simpa using (describes_of_ofRow read).complete
  have incomplete : ¬ ∀ row ∈ [titleReport, bodyReport], Complete row := by
    intro all
    obtain ⟨c, read⟩ := exists_ofRow (all bodyReport (by simp))
    cases read
  have asked (rows : List Row) := ((columns_reported Backend.mute "notes").1 notes).2 (reporting rows) .top
  refine ⟨notes, title, complete, ?_, ?_, ?_, ?_⟩
  · have own : Own .mute (reporting [titleReport]) ((reporting [titleReport]).operate .top (.schema "notes"))
        (reportHappened [titleReport] (.columns [⟨0, "title", "TEXT", true, some "5", 0⟩])) :=
      .own rfl (.others rfl (later_steps 1 _) (.own rfl (.others rfl (later_steps 1 _)
        (.own rfl (.own rfl (.done _ _))))))
    obtain ⟨answer, outcome, asks, exact'⟩ := (asked [titleReport]).1.2 _ own
    obtain ⟨rfl, rfl⟩ := asks_reportHappened asks
    obtain ⟨columns, same, described⟩ := (exact' _ rfl).mpr complete
    cases same
    exact ⟨_, own, described⟩
  · have own : Own .mute (reporting [titleReport])
        ((reporting [titleReport]).operate .top (.validateSchema "notes" ["title"]))
        (reportHappened [titleReport] (.flag true)) :=
      .own rfl (.others rfl (later_steps 1 _) (.own rfl (.others rfl (later_steps 1 _)
        (.own rfl (.own rfl (.done _ _))))))
    obtain ⟨answer, outcome, asks, exact'⟩ := ((asked [titleReport]).2 _ title).2 _ own
    obtain ⟨rfl, rfl⟩ := asks_reportHappened asks
    obtain ⟨holds, same, covered⟩ := exact' _ rfl complete
    cases same
    exact ⟨own, covered.mp rfl⟩
  · have own : Own .mute (reporting [titleReport, bodyReport])
        ((reporting [titleReport, bodyReport]).operate .top (.schema "notes"))
        (reportHappened [titleReport, bodyReport] (.failed (.store (.storage "Invalid column name: type")))) :=
      .own rfl (.others rfl (later_steps 1 _) (.own rfl (.others rfl (later_steps 1 _)
        (.own rfl (.own rfl (.done _ _))))))
    obtain ⟨answer, outcome, asks, -⟩ := (asked [titleReport, bodyReport]).1.2 _ own
    obtain ⟨rfl, rfl⟩ := asks_reportHappened asks
    obtain ⟨field, fault, same⟩ := asks.fault _ rfl incomplete
    simp only [Outcome.failed.injEq, Failure.store.injEq, Error.storage.injEq] at same
    exact ⟨own, field, fault, same⟩
  · obtain ⟨happened, own⟩ : ∃ happened, Own .mute (start () true 0)
        ((start () true 0).operate .top (.validateSchema "1st" [])) happened := own_exists ..
    exact ⟨happened, own, ((columns_reported Backend.mute "1st").2.1 _ _).2 happened own⟩

end Session

end LiveTable
