import LiveTable.Proofs.Decoding
import LiveTable.Proofs.Reserved
import LiveTable.Proofs.Validation

/-!
# The statement that creates a table

The statement that creates a table can be read back: the name of the table and its columns, in order, with the
type and the constraints of each, whatever words the names are. The columns are those of the caller, and the
reserved column among them is a plain integer, where the caller declares it or else at the end.
-/

namespace LiveTable

namespace Statement

/-! ## Reading columns back -/

/-- Words with a blank in front of each are cut into the words. -/
theorem cut_words {words : List String} (named : ∀ word ∈ words, isWord word = true) :
    cut .between (" " ++ " ".intercalate words).toList = some (words.map Lexeme.word) := by
  induction words with
  | nil => rfl
  | cons word rest ih =>
    obtain ⟨own, others⟩ := List.forall_mem_cons.mp named
    cases rest with
    | nil =>
      have text : (" " ++ " ".intercalate [word]).toList = ' ' :: word.toList := by simp
      rw [text, cut_blank, cut_word own]
      rfl
    | cons next rest =>
      have opened : opens (" " ++ " ".intercalate (next :: rest)) = true := opens_append (by decide) _
      have first := cut_opened opened (cut_word own) []
      have text : (" " ++ " ".intercalate (word :: next :: rest)).toList =
          ' ' :: (word.toList ++ (" " ++ " ".intercalate (next :: rest)).toList) := by
        rw [String.intercalate_cons_cons, String.append_assoc, String.toList_append, String.toList_append]
        rfl
      rw [List.append_nil] at first
      rw [text, cut_blank, first, ih others]
      rfl

theorem lexemes_definition (d : ColumnDef) :
    (Piece.word (" " ++ d.sql)).lexemes = d.sqlWords.map Lexeme.word := by
  have named : ∀ word ∈ d.sqlWords, isWord word = true := d.forall_sqlWords (by decide)
  rw [Piece.lexemes, ColumnDef.sql, cut_words named, Option.getD_some]

/-- A declaration is read up to a sign: no constraint is one, so what is left out is not found. -/
theorem readDefinition_words (d : ColumnDef) (sign : String) (rest : List Lexeme) :
    readDefinition (d.sqlWords.map Lexeme.word ++ .sign sign :: rest) = some (d, .sign sign :: rest) := by
  obtain ⟨type, primaryKey, autoincrement, notNull⟩ := d
  cases type <;> cases primaryKey <;> cases autoincrement <;> cases notNull <;> rfl

/-- The pieces of a column in the statement that creates its table. -/
def columnPieces (e : String × ColumnDef) : List Piece := [.name .column e.1, .word (" " ++ e.2.sql)]

theorem pieces_createTable (table : String) (columns : List (String × ColumnDef)) :
    (createTable table columns).pieces =
      [.word "CREATE TABLE IF NOT EXISTS ", .name .table table, .word " ("] ++
        separated ", " (columns.map columnPieces) ++ [.word ")"] := rfl

theorem lexemes_column {e : String × ColumnDef} (named : e.1 ≠ "*") :
    (columnPieces e).flatMap Piece.lexemes = .word e.1 :: e.2.sqlWords.map Lexeme.word := by
  rw [columnPieces, lexemes_row .column named, lexemes_definition]

/-- Columns are read up to the closing bracket. -/
theorem readColumns_rows {columns : List (String × ColumnDef)} (some' : columns ≠ [])
    (named : ∀ e ∈ columns, e.1 ≠ "*") (before : List (String × ColumnDef)) {fuel : Nat}
    (enough : columns.length ≤ fuel) (rest : List Lexeme) :
    readColumns before fuel
      ((separated ", " (columns.map columnPieces)).flatMap Piece.lexemes ++ .sign ")" :: rest) =
        some (before.reverse ++ columns, rest) := by
  induction columns generalizing before fuel with
  | nil => exact absurd rfl some'
  | cons column columns ih =>
    have row := lexemes_column (named column (List.mem_cons_self ..))
    cases fuel with
    | zero => cases enough
    | succ fuel =>
      cases columns with
      | nil =>
        rw [List.map_singleton, separated, row, List.cons_append, readColumns, readDefinition_words]
        simp
      | cons next columns =>
        have more := ih (by simp) (fun e member => named e (List.mem_cons_of_mem _ member))
          (column :: before) (Nat.le_of_succ_le_succ enough)
        rw [List.map_cons] at more
        rw [List.map_cons, List.map_cons, lexemes_separated, row, lexemes_comma]
        simp only [List.cons_append, List.nil_append, List.append_assoc, readColumns]
        rw [readDefinition_words]
        simp only [Option.bind_eq_bind, Option.bind_some]
        rw [more]
        simp

theorem ofLexemes_createTable {table : String} (word : isWord table = true)
    {columns : List (String × ColumnDef)} (some' : columns ≠ []) (named : ∀ e ∈ columns, e.1 ≠ "*") :
    ofLexemes? (createTable table columns).lexemes = some (createTable table columns) := by
  have head : (Piece.word "CREATE TABLE IF NOT EXISTS ").lexemes =
      [.word "CREATE", .word "TABLE", .word "IF", .word "NOT", .word "EXISTS"] := by decide
  have opening : (Piece.word " (").lexemes = [.sign "("] := by decide
  have closing : (Piece.word ")").lexemes = [.sign ")"] := by decide
  have whole : (createTable table columns).lexemes = .word "CREATE" :: .word "TABLE" :: .word "IF" ::
      .word "NOT" :: .word "EXISTS" :: .word table :: .sign "(" ::
        ((separated ", " (columns.map columnPieces)).flatMap Piece.lexemes ++ [.sign ")"]) := by
    simp [lexemes, pieces_createTable, head, opening, closing, lexemes_word word]
  -- Every column has a word at least, so the words and signs bound the columns that are read.
  have enough : columns.length ≤
      ((separated ", " (columns.map columnPieces)).flatMap Piece.lexemes ++ [Lexeme.sign ")"]).length := by
    rw [List.length_append]
    refine Nat.le_add_right_of_le ((List.length_map _).symm.le.trans (length_le_lexemes fun row member => ?_))
    obtain ⟨e, present, rfl⟩ := List.mem_map.mp member
    rw [lexemes_column (named e present)]
    simp
  rw [whole, ofLexemes?, readColumns_rows some' named [] enough []]
  rfl

/-- The statement that creates a table is read back from its text, whatever words its names are. -/
theorem read_createTable {table : String} (plain : Plain table) {columns : List (String × ColumnDef)}
    (some' : columns ≠ []) (named : ∀ e ∈ columns, Plain e.1) :
    read? (createTable table columns).text = some (createTable table columns) := by
  have word {name : String} (plain : Plain name) : isWord name = true :=
    isWord_of_isIdentifier (isIdentifier_iff.mpr plain)
  have columnsRead := ofLexemes_createTable (word plain) some' fun e member =>
    word_ne_star (word (named e member))
  refine read_text (by simp) ?_ columnsRead
  rw [names_eq, List.forall_mem_cons, List.forall_mem_map]
  exact ⟨.inl (word plain), fun e member => .inl (word (named e member))⟩

theorem text_createTable (table : String) (columns : List (String × ColumnDef)) :
    (createTable table columns).text = "CREATE TABLE IF NOT EXISTS " ++ table ++ " (" ++
      ", ".intercalate (columns.map fun e => e.1 ++ " " ++ e.2.sql) ++ ")" := by
  have row (e : String × ColumnDef) :
      String.join ((columnPieces e).map Piece.text) = e.1 ++ " " ++ e.2.sql := by
    simp [columnPieces, Piece.text, String.append_assoc]
  have rows : String.join ((separated ", " (columns.map columnPieces)).map Piece.text) =
      ", ".intercalate (columns.map fun e => e.1 ++ " " ++ e.2.sql) := by
    rw [join_separated, List.map_map]
    exact congrArg _ (List.map_congr_left fun e _ => row e)
  simp [text, pieces_createTable, Piece.text, rows, String.append_assoc]

end Statement

/-! ## The columns of a new table -/

/-- A table with these columns is as the caller declares it, but for the reserved column: that is a plain
integer, where the caller declares it or else at the end. -/
structure Declares (spec : ColumnSpec) (columns : List (String × ColumnDef)) : Prop where
  once : columns.filter (·.1 = addedColumn) = [(addedColumn, .plain .integer)]
  inPlace : ∀ before d after, spec.entries = before ++ (addedColumn, d) :: after →
    columns = before ++ (addedColumn, .plain .integer) :: after
  atEnd : addedColumn ∉ spec.names → columns = spec.entries ++ [(addedColumn, .plain .integer)]

/-- A name that is present keeps its place. -/
theorem Ordered.place_present {α : Type} {name : String} {before : List (String × α)}
    (absent : name ∉ before.map Prod.fst) (old value : α) (after : List (String × α)) :
    place name value (before ++ (name, old) :: after) = before ++ (name, value) :: after := by
  induction before with
  | nil => simp [place]
  | cons e rest ih =>
    obtain ⟨n, v⟩ := e
    rw [List.map_cons, List.mem_cons, not_or] at absent
    rw [List.cons_append, place, if_neg (Ne.symm absent.1), ih absent.2, List.cons_append]

theorem declares_declaredColumns (spec : ColumnSpec) :
    Declares spec (Request.declaredColumns spec).entries where
  once := (reserves_insert spec (.plain .integer)).own
  inPlace before d after split := by
    have absent : addedColumn ∉ before.map Prod.fst := by
      have nodup := spec.nodup
      rw [split, List.map_append, List.map_cons, List.nodup_append] at nodup
      exact fun member => nodup.2.2 addedColumn member addedColumn (List.mem_cons_self ..) rfl
    show Ordered.place addedColumn _ spec.entries = _
    rw [split]
    exact Ordered.place_present absent d _ after
  atEnd absent := Ordered.place_absent _ absent

/-- A new table has a column. -/
theorem Declares.ne_nil {spec : ColumnSpec} {columns : List (String × ColumnDef)}
    (declares : Declares spec columns) : columns ≠ [] := by
  rintro rfl
  cases declares.once

variable {σ : Type}

/-- Of plain names, creating a table sends one statement, the same whenever it is asked for. Its text tells the
name of the table and the columns: it is read back as the statement, and no other name and columns make up the
same text. The columns are as the caller declares them, but for the reserved column. -/
theorem declaration_determined {table : String} {spec : ColumnSpec} (named : Plain table)
    (declared : ∀ name ∈ spec.names, Plain name) :
    ∃ columns, Declares spec columns ∧
      (∀ (s : Session σ) context, ∃ next, s.operate context (.createTable table spec) =
        (s, [.send ⟨.execute, .createTable table columns, []⟩ next])) ∧
      (∀ (backend : Backend σ) (s : Session σ) context command,
        Command.Calls command (.createTable table spec) →
          s.ask backend context command =
            (s.record (.asked command)).operate context (.createTable table spec)) ∧
      (Statement.createTable table columns).text = "CREATE TABLE IF NOT EXISTS " ++ table ++ " (" ++
        ", ".intercalate (columns.map fun e => e.1 ++ " " ++ e.2.sql) ++ ")" ∧
      Statement.read? (Statement.createTable table columns).text = some (.createTable table columns) ∧
      ∀ table' columns', Plain table' → columns' ≠ [] → (∀ e ∈ columns', Plain e.1) →
        (Statement.createTable table' columns').text = (Statement.createTable table columns).text →
          table' = table ∧ columns' = columns := by
  have identifiers : ∀ name ∈ spec.names, isIdentifier name = true := fun name member =>
    isIdentifier_iff.mpr (declared name member)
  have passes := identifiers_insert identifiers (ColumnDef.plain .integer)
  have sends : Request.createTable table spec =
      .ok ⟨.execute, .createTable table (Request.declaredColumns spec).entries, []⟩ :=
    Request.createTable_eq_ok.mpr ⟨checkName_eq_ok.mpr (isIdentifier_iff.mpr named), passes, rfl⟩
  have declares := declares_declaredColumns spec
  have columns : ∀ e ∈ (Request.declaredColumns spec).entries, Plain e.1 := fun e member =>
    isIdentifier_iff.mp (checkNames_eq_ok.mp passes e.1 (List.mem_map_of_mem member))
  have read := Statement.read_createTable named declares.ne_nil columns
  refine ⟨_, declares, fun s context => ⟨_, by rw [Session.operate, sends]; rfl⟩,
    fun backend s context command calls => Session.ask_operate backend s context calls,
    Statement.text_createTable table _, read, ?_⟩
  intro table' columns' named' some' columnsNamed same
  -- What one function reads from the same text is the same.
  have read' := Statement.read_createTable named' some' columnsNamed
  rw [same, read, Option.some.injEq, Statement.createTable.injEq] at read'
  exact ⟨read'.1.symm, read'.2.symm⟩

/-- Columns whose names are words of the statement, with the reserved column in the middle. -/
def wordyColumns : ColumnSpec := .ofList [("PRIMARY", (ColumnDef.plain .text).asAutoincrement.asNotNull),
  ("added", (ColumnDef.plain .text).asPrimaryKey), ("NOT", ⟨.blob, false, true, true⟩), ("TEXT", .plain .real)]

/-- They are told apart from the words of the statement, and from their constraints. -/
theorem wordyColumns_determined : Plain "TABLE" ∧ (∀ name ∈ wordyColumns.names, Plain name) ∧
    ∃ columns, columns = [("PRIMARY", (ColumnDef.plain .text).asAutoincrement.asNotNull),
        ("added", .plain .integer), ("NOT", ⟨.blob, false, true, true⟩), ("TEXT", .plain .real)] ∧
      (Statement.createTable "TABLE" columns).text =
        "CREATE TABLE IF NOT EXISTS TABLE (PRIMARY TEXT PRIMARY KEY AUTOINCREMENT NOT NULL, " ++
          "added INTEGER, NOT BLOB AUTOINCREMENT NOT NULL, TEXT REAL)" ∧
      Statement.read? (Statement.createTable "TABLE" columns).text = some (.createTable "TABLE" columns) := by
  have table : Plain "TABLE" := isIdentifier_iff.mp (by decide)
  have identifiers : ∀ name ∈ wordyColumns.names, isIdentifier name = true := by decide
  have named : ∀ name ∈ wordyColumns.names, Plain name := fun name member =>
    isIdentifier_iff.mp (identifiers name member)
  obtain ⟨columns, declares, -, -, text, read, -⟩ := declaration_determined (σ := Unit) table named
  have same := declares.inPlace [("PRIMARY", (ColumnDef.plain .text).asAutoincrement.asNotNull)]
    (ColumnDef.plain .text).asPrimaryKey [("NOT", ⟨.blob, false, true, true⟩), ("TEXT", .plain .real)] (by decide)
  refine ⟨table, named, columns, same, ?_, read⟩
  rw [text, same]
  decide

end LiveTable
