import LiveTable.Proofs.Lexemes

/-!
# Reading statements back

The words and signs of a statement that changes or selects rows are read back as that statement,
whatever words its names are. Each part is read up to its end: what follows it never looks like one
more element of it.
-/

namespace LiveTable.Statement

variable {rest : List Lexeme}

theorem lexemes_comma : (Piece.word ", ").lexemes = [.sign ","] := by decide

theorem lexemes_separated (separator : String) (row next : List Piece) (rows : List (List Piece)) :
    (separated separator (row :: next :: rows)).flatMap Piece.lexemes =
      row.flatMap Piece.lexemes ++ ((Piece.word separator).lexemes ++
        (separated separator (next :: rows)).flatMap Piece.lexemes) := by
  rw [separated, List.flatMap_append, List.flatMap_cons]
  simp

theorem length_le_lexemes {separator : String} {rows : List (List Piece)}
    (some' : ∀ row ∈ rows, row.flatMap Piece.lexemes ≠ []) :
    rows.length ≤ ((separated separator rows).flatMap Piece.lexemes).length := by
  fun_induction separated separator rows with
  | case1 => exact Nat.le_refl _
  | case2 row => exact List.length_pos_of_ne_nil (some' row (List.mem_singleton_self _))
  | case3 row rest more ih =>
    have others := ih fun row member => some' row (List.mem_cons_of_mem _ member)
    have here := List.length_pos_of_ne_nil (some' row (List.mem_cons_self ..))
    simp only [List.flatMap_append, List.flatMap_cons, List.length_append, List.length_cons] at others ⊢
    omega

/-! ## Lists of names and placeholders -/

theorem readPlaceholders_marks (count n : Nat) (first : n = 0 → count = 0) (rest : List Lexeme) :
    readPlaceholders count ((Piece.word (TestOp.placeholders n)).lexemes ++ .sign ")" :: rest) =
      some (count + n, rest) := by
  induction n generalizing count with
  | zero =>
    obtain rfl := first rfl
    rfl
  | succ n ih =>
    cases n with
    | zero => rfl
    | succ n =>
      have one : (Piece.word "?, ").lexemes = [.sign "?", .sign ","] := by decide
      rw [placeholders_succ, lexemes_append (by decide) (isFixed_placeholders _) (.inl (by decide)), one]
      simp only [List.cons_append, List.nil_append, readPlaceholders]
      rw [ih (count + 1) (by simp)]
      simp
      omega

/-- The last name of a list is the one that no comma follows. -/
theorem readNames_last (place : Place) (name : String) (before : List String)
    (stops : ∀ more, rest ≠ .sign "," :: more) :
    readNames before ((Piece.name place name).lexemes ++ rest) =
      some ((name :: before).reverse, rest) := by
  rw [Piece.lexemes]
  split
  · rename_i star
    subst star
    simp only [List.singleton_append]
    rw [readNames]
    exact stops
  · simp only [List.singleton_append]
    rw [readNames]
    exact stops

theorem readNames_more (place : Place) (name : String) (before : List String) (rest : List Lexeme) :
    readNames before ((Piece.name place name).lexemes ++ .sign "," :: rest) =
      readNames (name :: before) rest := by
  rw [Piece.lexemes]
  split
  · rename_i star
    subst star
    rfl
  · rfl

/-- Names are read up to where no comma follows. -/
theorem readNames_nameList (place : Place) {names : List String} (some' : names ≠ [])
    (before : List String) (stops : ∀ more, rest ≠ .sign "," :: more) :
    readNames before ((nameList place names).flatMap Piece.lexemes ++ rest) =
      some (before.reverse ++ names, rest) := by
  induction names generalizing before with
  | nil => exact absurd rfl some'
  | cons name names ih =>
    cases names with
    | nil =>
      have last := readNames_last place name before stops
      simpa [nameList, separated] using last
    | cons next names =>
      rw [nameList, List.map_cons, List.map_cons, lexemes_separated, lexemes_comma]
      have more := ih (by simp) (name :: before)
      rw [nameList, List.map_cons] at more
      simp only [List.flatMap_singleton, List.append_assoc, List.cons_append, List.nil_append]
      rw [readNames_more, more]
      simp

theorem lexemes_row (place : Place) {name : String} (named : name ≠ "*") (follows : String) :
    [Piece.name place name, .word follows].flatMap Piece.lexemes =
      .word name :: (Piece.word follows).lexemes := by
  simp [Piece.lexemes, named]

/-- Assignments are read up to where no comma follows. -/
theorem readAssignments_columns {columns : List String} (some' : columns ≠ [])
    (named : ∀ c ∈ columns, c ≠ "*") (before : List String) (stops : ∀ more, rest ≠ .sign "," :: more) :
    readAssignments before ((separated ", " (columns.map fun c => [.name .assigned c, .word " = ?"])).flatMap
      Piece.lexemes ++ rest) = some (before.reverse ++ columns, rest) := by
  have assigns : (Piece.word " = ?").lexemes = [.sign "=", .sign "?"] := by decide
  induction columns generalizing before with
  | nil => exact absurd rfl some'
  | cons column columns ih =>
    have row := lexemes_row .assigned (named column (List.mem_cons_self ..)) " = ?"
    cases columns with
    | nil =>
      rw [List.map_singleton, separated, row, assigns]
      simp only [List.cons_append, List.nil_append]
      rw [readAssignments]
      · simp
      · exact stops
    | cons next columns =>
      have more := ih (by simp) (fun c member => named c (List.mem_cons_of_mem _ member))
        (column :: before)
      rw [List.map_cons] at more
      rw [List.map_cons, List.map_cons, lexemes_separated, row, assigns, lexemes_comma]
      simp only [List.cons_append, List.nil_append, readAssignments]
      rw [more]
      simp

/-! ## Conditions -/

/-- The words and signs of a test behind its field. -/
theorem lexemes_op (op : TestOp) : (Piece.word (" " ++ op.sql)).lexemes = match op with
    | .compare .like => [.word "LIKE", .sign "?"]
    | .compare op => [.sign op.sql, .sign "?"]
    | .member .isIn count =>
      .word "IN" :: .sign "(" :: ((Piece.word (TestOp.placeholders count)).lexemes ++ [.sign ")"])
    | .member .notIn count =>
      .word "NOT" :: .word "IN" :: .sign "(" ::
        ((Piece.word (TestOp.placeholders count)).lexemes ++ [.sign ")"]) := by
  cases op with
  | compare op => cases op <;> decide
  | member op count =>
    have marks := isFixed_placeholders count
    have bracketed : (Piece.word (TestOp.placeholders count ++ ")")).lexemes =
        (Piece.word (TestOp.placeholders count)).lexemes ++ [.sign ")"] := by
      rw [lexemes_append marks (by decide) (.inr (by decide))]
      rfl
    have whole : " " ++ (TestOp.member op count).sql =
        (" " ++ op.sql ++ " (") ++ (TestOp.placeholders count ++ ")") := by
      simp [TestOp.sql, ← String.toList_inj]
    have fixed : isFixed (TestOp.placeholders count ++ ")") = true :=
      isFixed_append marks (by decide) (.inr (by decide))
    rw [whole, lexemes_append (by cases op <;> decide) fixed (.inl (by cases op <;> decide)), bracketed]
    cases op <;> rfl

theorem readTest_row (t : Test) (named : t.field ≠ "*") (rest : List Lexeme) :
    readTest ([Piece.name .field t.field, .word (" " ++ t.op.sql)].flatMap Piece.lexemes ++ rest) =
      some (t, rest) := by
  obtain ⟨field, op⟩ := t
  rw [lexemes_row .field named, lexemes_op]
  cases op with
  | compare op => cases op <;> rfl
  | member op count =>
    have read := readPlaceholders_marks 0 count (fun _ => rfl) rest
    cases op <;> simp [readTest, read]

/-- Tests are read up to where no conjunction follows. -/
theorem readTests_rows {tests : List Test} (some' : tests ≠ []) (named : ∀ t ∈ tests, t.field ≠ "*")
    (before : List Test) {fuel : Nat} (enough : tests.length ≤ fuel)
    (stops : ∀ more, rest ≠ .word "AND" :: more) :
    readTests before fuel ((separated " AND "
      (tests.map fun t => [.name .field t.field, .word (" " ++ t.op.sql)])).flatMap Piece.lexemes ++ rest) =
        some (before.reverse ++ tests, rest) := by
  have conjunction : (Piece.word " AND ").lexemes = [.word "AND"] := by decide
  induction tests generalizing before fuel with
  | nil => exact absurd rfl some'
  | cons test tests ih =>
    have first := readTest_row test (named test (List.mem_cons_self ..))
    cases fuel with
    | zero => cases enough
    | succ fuel =>
      cases tests with
      | nil =>
        rw [List.map_singleton, separated, readTests, first]
        simp
      | cons next tests =>
        have more := ih (by simp) (fun t member => named t (List.mem_cons_of_mem _ member))
          (test :: before) (Nat.le_of_succ_le_succ enough)
        rw [List.map_cons] at more
        rw [List.map_cons, List.map_cons, lexemes_separated, conjunction, List.append_assoc, readTests,
          first]
        simp only [Option.bind_eq_bind, Option.bind_some, List.cons_append, List.nil_append]
        rw [more]
        simp

/-- A condition is read up to where neither a condition nor a conjunction follows. -/
theorem readWhere_tests {tests : List Test} (named : ∀ t ∈ tests, t.field ≠ "*") (rest : List Lexeme)
    (stops : ∀ more, rest ≠ .word "AND" :: more) (none' : ∀ more, rest ≠ .word "WHERE" :: more) :
    readWhere ((wherePieces tests).flatMap Piece.lexemes ++ rest) = some (tests, rest) := by
  cases tests with
  | nil =>
    simp only [wherePieces, List.isEmpty_nil, if_true, List.flatMap_nil, List.nil_append]
    rw [readWhere]
    exact none'
  | cons test tests =>
    have word : (Piece.word " WHERE ").lexemes = [.word "WHERE"] := by decide
    -- Every test has a word at least, so the words and signs bound the tests that are read.
    have enough : (test :: tests).length ≤ ((separated " AND "
        ((test :: tests).map fun t => [.name .field t.field, .word (" " ++ t.op.sql)])).flatMap
          Piece.lexemes ++ rest).length := by
      rw [List.length_append]
      refine Nat.le_add_right_of_le ((List.length_map _).symm.le.trans (length_le_lexemes fun row member => ?_))
      obtain ⟨t, present, rfl⟩ := List.mem_map.mp member
      rw [lexemes_row .field (named t present)]
      simp
    rw [wherePieces, List.isEmpty_cons, if_neg (by simp), List.flatMap_cons, word]
    simp only [List.cons_append, List.nil_append, readWhere]
    rw [readTests_rows (by simp) named [] enough stops]
    rfl

/-! ## Orders -/

/-- Sort keys are read to the end. -/
theorem readKeys_rows {keys : List SortKey} (some' : keys ≠ []) (named : ∀ k ∈ keys, k.column ≠ "*")
    (before : List SortKey) : readKeys before ((separated ", "
      (keys.map fun k => [.name .key k.column, .word (" " ++ k.direction.sql)])).flatMap
        Piece.lexemes) = some (before.reverse ++ keys) := by
  induction keys generalizing before with
  | nil => exact absurd rfl some'
  | cons key keys ih =>
    have row := lexemes_row .key (named key (List.mem_cons_self ..)) (" " ++ key.direction.sql)
    obtain ⟨column, direction⟩ := key
    have directs : (Piece.word (" " ++ direction.sql)).lexemes = [.word direction.sql] ∧
        direction? direction.sql = some direction := by cases direction <;> decide
    cases keys with
    | nil =>
      rw [List.map_singleton, separated, row, directs.1]
      simp [readKeys, directs.2]
    | cons next keys =>
      have more := ih (by simp) (fun k member => named k (List.mem_cons_of_mem _ member))
        (⟨column, direction⟩ :: before)
      rw [List.map_cons] at more
      rw [List.map_cons, List.map_cons, lexemes_separated, row, directs.1, lexemes_comma]
      simp only [List.cons_append, List.nil_append, readKeys, directs.2, Option.bind_eq_bind,
        Option.bind_some]
      rw [more]
      simp

theorem readOrder_keys {keys : List SortKey} (named : ∀ k ∈ keys, k.column ≠ "*") :
    readOrder ((orderPieces keys).flatMap Piece.lexemes) = some keys := by
  cases keys with
  | nil => rfl
  | cons key keys =>
    have words : (Piece.word " ORDER BY ").lexemes = [.word "ORDER", .word "BY"] := by decide
    rw [orderPieces, List.isEmpty_cons, if_neg (by simp), List.flatMap_cons, words]
    simp only [List.cons_append, List.nil_append, readOrder]
    rw [readKeys_rows (by simp) named []]
    rfl

/-! ## Statements -/

theorem word_ne_star {name : String} (word : isWord name = true) : name ≠ "*" := by
  rintro rfl
  exact absurd word (by decide)

theorem lexemes_word {name : String} (word : isWord name = true) (place : Place) :
    (Piece.name place name).lexemes = [.word name] := if_neg (word_ne_star word)

theorem ofLexemes_insert {table : String} (word : isWord table = true) {columns : List String}
    (some' : columns ≠ []) : ofLexemes? (insert table columns).lexemes = some (insert table columns) := by
  have head : (Piece.word "INSERT INTO ").lexemes = [.word "INSERT", .word "INTO"] := by decide
  have bracket : (Piece.word " (").lexemes = [.sign "("] := by decide
  have values : (Piece.word (") VALUES (" ++ TestOp.placeholders columns.length ++ ")")).lexemes =
      .sign ")" :: .word "VALUES" :: .sign "(" ::
        ((Piece.word (TestOp.placeholders columns.length)).lexemes ++ [.sign ")"]) := by
    have marks := isFixed_placeholders columns.length
    rw [lexemes_append (isFixed_append (by decide) marks (.inl (by decide))) (by decide)
      (.inr (by decide)), lexemes_append (by decide) marks (.inl (by decide))]
    rfl
  have whole : (insert table columns).lexemes = .word "INSERT" :: .word "INTO" :: .word table ::
      .sign "(" :: ((nameList .column columns).flatMap Piece.lexemes ++
        .sign ")" :: .word "VALUES" :: .sign "(" ::
          ((Piece.word (TestOp.placeholders columns.length)).lexemes ++ [.sign ")"])) := by
    simp [lexemes, pieces, head, bracket, values, lexemes_word word]
  rw [whole, ofLexemes?, readNames_nameList .column some' [] (by simp)]
  simp [readPlaceholders_marks 0 columns.length (fun _ => rfl) []]

theorem ofLexemes_update {table : String} (word : isWord table = true) {columns : List String}
    (some' : columns ≠ []) (named : ∀ c ∈ columns, c ≠ "*") {tests : List Test}
    (named' : ∀ t ∈ tests, t.field ≠ "*") :
    ofLexemes? (update table columns tests).lexemes = some (update table columns tests) := by
  have head : (Piece.word "UPDATE ").lexemes = [.word "UPDATE"] := by decide
  have sets : (Piece.word " SET ").lexemes = [.word "SET"] := by decide
  have whole : (update table columns tests).lexemes = .word "UPDATE" :: .word table :: .word "SET" ::
      ((separated ", " (columns.map fun c => [.name .assigned c, .word " = ?"])).flatMap
        Piece.lexemes ++ (wherePieces tests).flatMap Piece.lexemes) := by
    simp [lexemes, pieces, head, sets, lexemes_word word]
  have condition := readWhere_tests named' [] (by simp) (by simp)
  rw [List.append_nil] at condition
  have stops : ∀ more, (wherePieces tests).flatMap Piece.lexemes ≠ .sign "," :: more := by
    intro more
    cases tests with
    | nil => simp [wherePieces]
    | cons test tests =>
      have word : (Piece.word " WHERE ").lexemes = [.word "WHERE"] := by decide
      simp [wherePieces, word]
  rw [whole, ofLexemes?, readAssignments_columns some' named [] stops]
  simp [condition]

theorem ofLexemes_delete {table : String} (word : isWord table = true) {tests : List Test}
    (named : ∀ t ∈ tests, t.field ≠ "*") :
    ofLexemes? (delete table tests).lexemes = some (delete table tests) := by
  have head : (Piece.word "DELETE FROM ").lexemes = [.word "DELETE", .word "FROM"] := by decide
  have whole : (delete table tests).lexemes = .word "DELETE" :: .word "FROM" :: .word table ::
      (wherePieces tests).flatMap Piece.lexemes := by
    simp [lexemes, pieces, head, lexemes_word word]
  have condition := readWhere_tests named [] (by simp) (by simp)
  rw [List.append_nil] at condition
  rw [whole, ofLexemes?]
  simp [condition]

theorem ofLexemes_select {projection : List String} (some' : projection ≠ []) {table : String}
    (word : isWord table = true) {tests : List Test} (named : ∀ t ∈ tests, t.field ≠ "*")
    {keys : List SortKey} (named' : ∀ k ∈ keys, k.column ≠ "*") :
    ofLexemes? (select projection table tests keys).lexemes =
      some (select projection table tests keys) := by
  have head : (Piece.word "SELECT ").lexemes = [.word "SELECT"] := by decide
  have from' : (Piece.word " FROM ").lexemes = [.word "FROM"] := by decide
  have whole : (select projection table tests keys).lexemes = .word "SELECT" ::
      ((nameList .projected projection).flatMap Piece.lexemes ++ .word "FROM" :: .word table ::
        ((wherePieces tests).flatMap Piece.lexemes ++ (orderPieces keys).flatMap Piece.lexemes)) := by
    simp [lexemes, pieces, head, from', lexemes_word word]
  have orders : (orderPieces keys).flatMap Piece.lexemes = [] ∨
      ∃ more, (orderPieces keys).flatMap Piece.lexemes = .word "ORDER" :: more := by
    cases keys with
    | nil => exact .inl rfl
    | cons key keys =>
      have words : (Piece.word " ORDER BY ").lexemes = [.word "ORDER", .word "BY"] := by decide
      exact .inr ⟨_, by
        rw [orderPieces, List.isEmpty_cons, if_neg (by simp), List.flatMap_cons, words]
        rfl⟩
  have condition := readWhere_tests named ((orderPieces keys).flatMap Piece.lexemes)
    (by rcases orders with none | ⟨more, order⟩ <;> simp [*])
    (by rcases orders with none | ⟨more, order⟩ <;> simp [*])
  rw [whole, ofLexemes?, readNames_nameList .projected some' [] (by simp)]
  simp [condition, readOrder_keys named']

/-- A text is read as the statement whose words and signs it consists of. -/
theorem read_text {s : Statement} (given : ∀ text, s ≠ .verbatim text)
    (named : ∀ name ∈ s.names, isWord name = true ∨ name = "*")
    (read : ofLexemes? s.lexemes = some s) : read? s.text = some s := by
  rw [read?, cut_text given named]
  exact read

end LiveTable.Statement
