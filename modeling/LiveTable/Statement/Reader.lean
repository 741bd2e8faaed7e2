import LiveTable.Statement

/-!
# Reading statements

The text of a statement is cut into words and signs, and read back as a statement. Positions decide
what a word is, so a name may be any word, even one that stands at other places for itself.
-/

namespace LiveTable.Statement

/-- A word or a sign of a statement. -/
inductive Lexeme
  | word (text : String)
  | sign (text : String)
  deriving DecidableEq

/-- A character of a comparison sign. -/
def isComparisonChar (c : Char) : Bool := c = '=' || c = '!' || c = '<' || c = '>'

/-- A character that is a sign of its own. -/
def isSignChar (c : Char) : Bool := c = '(' || c = ')' || c = ',' || c = '?' || c = '*'

/-- What is being cut. -/
inductive Cutting
  | between
  | word (seen : List Char)
  | comparison (seen : List Char)

/-- What is complete when something else begins. -/
def Cutting.complete : Cutting → List Lexeme
  | .between => []
  | .word seen => [.word (String.ofList seen.reverse)]
  | .comparison seen => [.sign (String.ofList seen.reverse)]

/-- Cut a text, given what is being cut; none if a character has no place in a statement. -/
def cut (state : Cutting) : List Char → Option (List Lexeme)
  | [] => some state.complete
  | c :: rest =>
    if isNameChar c then
      match state with
      | .word seen => cut (.word (c :: seen)) rest
      | _ => (cut (.word [c]) rest).map (state.complete ++ ·)
    else if isComparisonChar c then
      match state with
      | .comparison seen => cut (.comparison (c :: seen)) rest
      | _ => (cut (.comparison [c]) rest).map (state.complete ++ ·)
    else if isSignChar c then
      (cut .between rest).map fun l => state.complete ++ .sign c.toString :: l
    else if c = ' ' then (cut .between rest).map (state.complete ++ ·)
    else none

/-! ## Parts -/

/-- The words of a declaration, up to its end. -/
def readDefinition : List Lexeme → Option (ColumnDef × List Lexeme)
  | .word type :: rest => do
    let type ← ColumnType.ofLower? (Text.lower type)
    let d := ColumnDef.plain type
    let (d, rest) := match rest with
      | .word "PRIMARY" :: .word "KEY" :: rest => (d.asPrimaryKey, rest)
      | rest => (d, rest)
    let (d, rest) := match rest with
      | .word "AUTOINCREMENT" :: rest => ({ d with autoincrement := true }, rest)
      | rest => (d, rest)
    match rest with
    | .word "NOT" :: .word "NULL" :: rest => some (d.asNotNull, rest)
    | rest => some (d, rest)
  | _ => none

/-- Declarations of a table up to the closing bracket, in reverse after those before; `fuel` bounds
their number. -/
def readColumns (before : List (String × ColumnDef)) :
    Nat → List Lexeme → Option (List (String × ColumnDef) × List Lexeme)
  | 0, _ => none
  | fuel + 1, .word name :: rest => do
    match ← readDefinition rest with
    | (d, .sign "," :: rest) => readColumns ((name, d) :: before) fuel rest
    | (d, .sign ")" :: rest) => some (((name, d) :: before).reverse, rest)
    | _ => none
  | _, _ => none

/-- Names with commas between them, in reverse after those before. -/
def readNames (before : List String) : List Lexeme → Option (List String × List Lexeme)
  | .word name :: .sign "," :: rest => readNames (name :: before) rest
  | .word name :: rest => some ((name :: before).reverse, rest)
  | .sign "*" :: .sign "," :: rest => readNames ("*" :: before) rest
  | .sign "*" :: rest => some (("*" :: before).reverse, rest)
  | _ => none

/-- Placeholders with commas between them up to the closing bracket, after `count` of them. -/
def readPlaceholders (count : Nat) : List Lexeme → Option (Nat × List Lexeme)
  | .sign "?" :: .sign "," :: rest => readPlaceholders (count + 1) rest
  | .sign "?" :: .sign ")" :: rest => some (count + 1, rest)
  | .sign ")" :: rest => if count = 0 then some (0, rest) else none
  | _ => none

/-- Assignments of placeholders with commas between them, in reverse after those before. -/
def readAssignments (before : List String) : List Lexeme → Option (List String × List Lexeme)
  | .word name :: .sign "=" :: .sign "?" :: .sign "," :: rest =>
    readAssignments (name :: before) rest
  | .word name :: .sign "=" :: .sign "?" :: rest => some ((name :: before).reverse, rest)
  | _ => none

/-- The comparison of a sign. -/
def compareOp? : String → Option CompareOp
  | "=" => some .eq
  | "!=" => some .ne
  | ">" => some .gt
  | "<" => some .lt
  | ">=" => some .ge
  | "<=" => some .le
  | _ => none

/-- One test. -/
def readTest : List Lexeme → Option (Test × List Lexeme)
  | .word field :: .word "IN" :: .sign "(" :: rest => do
    let (count, rest) ← readPlaceholders 0 rest
    some (⟨field, .member .isIn count⟩, rest)
  | .word field :: .word "NOT" :: .word "IN" :: .sign "(" :: rest => do
    let (count, rest) ← readPlaceholders 0 rest
    some (⟨field, .member .notIn count⟩, rest)
  | .word field :: .word "LIKE" :: .sign "?" :: rest => some (⟨field, .compare .like⟩, rest)
  | .word field :: .sign op :: .sign "?" :: rest => do
    some (⟨field, .compare (← compareOp? op)⟩, rest)
  | _ => none

/-- Tests joined by AND, in reverse after those before; `fuel` bounds their number. -/
def readTests (before : List Test) : Nat → List Lexeme → Option (List Test × List Lexeme)
  | 0, _ => none
  | fuel + 1, lexemes => do
    match ← readTest lexemes with
    | (t, .word "AND" :: rest) => readTests (t :: before) fuel rest
    | (t, rest) => some ((t :: before).reverse, rest)

/-- The condition of a statement, if it has one. -/
def readWhere : List Lexeme → Option (List Test × List Lexeme)
  | .word "WHERE" :: rest => readTests [] rest.length rest
  | rest => some ([], rest)

/-- The direction of a word. -/
def direction? : String → Option Direction
  | "ASC" => some .ascending
  | "DESC" => some .descending
  | _ => none

/-- Sort keys with commas between them to the end, in reverse after those before. -/
def readKeys (before : List SortKey) : List Lexeme → Option (List SortKey)
  | [.word column, .word direction] => do
    some ((⟨column, ← direction? direction⟩ :: before).reverse)
  | .word column :: .word direction :: .sign "," :: rest => do
    readKeys (⟨column, ← direction? direction⟩ :: before) rest
  | _ => none

/-- The order of a statement, if it has one, to the end. -/
def readOrder : List Lexeme → Option (List SortKey)
  | [] => some []
  | .word "ORDER" :: .word "BY" :: rest => readKeys [] rest
  | _ => none

/-! ## Statements -/

/-- A statement of words and signs. -/
def ofLexemes? : List Lexeme → Option Statement
  | .word "CREATE" :: .word "TABLE" :: .word "IF" :: .word "NOT" :: .word "EXISTS" ::
      .word table :: .sign "(" :: rest => do
    match ← readColumns [] rest.length rest with
    | (columns, []) => some (.createTable table columns)
    | _ => none
  | .word "ALTER" :: .word "TABLE" :: .word table :: .word "ADD" :: .word "COLUMN" ::
      .word column :: rest => do
    match ← readDefinition rest with
    | (d, []) => some (.addColumn table column d)
    | _ => none
  | [.word "CREATE", .word "INDEX", .word "IF", .word "NOT", .word "EXISTS", .word index,
      .word "ON", .word table, .sign "(", .word column, .sign ")"] =>
    if index = indexName table column then some (.createIndex table column) else none
  | [.word "DROP", .word "TABLE", .word "IF", .word "EXISTS", .word table] =>
    some (.dropTable table)
  | .word "INSERT" :: .word "INTO" :: .word table :: .sign "(" :: rest => do
    match ← readNames [] rest with
    | (columns, .sign ")" :: .word "VALUES" :: .sign "(" :: rest) =>
      match ← readPlaceholders 0 rest with
      | (count, []) => if count = columns.length then some (.insert table columns) else none
      | _ => none
    | _ => none
  | .word "UPDATE" :: .word table :: .word "SET" :: rest => do
    let (columns, rest) ← readAssignments [] rest
    match ← readWhere rest with
    | (tests, []) => some (.update table columns tests)
    | _ => none
  | .word "DELETE" :: .word "FROM" :: .word table :: rest => do
    match ← readWhere rest with
    | (tests, []) => some (.delete table tests)
    | _ => none
  | .word "SELECT" :: rest => do
    match ← readNames [] rest with
    | (projection, .word "FROM" :: .word table :: rest) =>
      let (tests, rest) ← readWhere rest
      some (.select projection table tests (← readOrder rest))
    | _ => none
  | [.word "PRAGMA", .word "table_list"] => some .tableList
  | [.word "PRAGMA", .word "table_info", .sign "(", .word table, .sign ")"] =>
    some (.tableInfo table)
  | [.word "PRAGMA", .word "journal_mode"] => some (.setting .journalMode)
  | [.word "PRAGMA", .word "busy_timeout"] => some (.setting .busyTimeout)
  | [.word "PRAGMA", .word "foreign_keys"] => some (.setting .foreignKeys)
  | _ => none

/-- The statement of a text. -/
def read? (text : String) : Option Statement := (cut .between text.toList).bind ofLexemes?

end LiveTable.Statement
