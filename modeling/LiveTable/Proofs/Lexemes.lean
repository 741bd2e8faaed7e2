import LiveTable.Statement.Reader
import Mathlib.Data.List.Chain

/-!
# The words and signs of statements

The text of a statement is cut at the joints of its pieces: at every joint there is a blank or a sign
that belongs to one side only. So the words of a statement are those of its fixed pieces, which are
known, and its names.
-/

namespace LiveTable.Statement

/-- The words that are the same in the statements of all callers. -/
def vocabulary : List String := [
  "CREATE", "TABLE", "IF", "NOT", "EXISTS", "ALTER", "ADD", "COLUMN", "INDEX", "ON", "DROP",
  "INSERT", "INTO", "VALUES", "UPDATE", "SET", "DELETE", "SELECT", "FROM", "WHERE", "AND", "IN", "LIKE",
  "ORDER", "BY", "ASC", "DESC", "TEXT", "INTEGER", "REAL", "BLOB", "PRIMARY", "KEY", "AUTOINCREMENT",
  "NULL", "PRAGMA", "table_list", "table_info", "journal_mode", "busy_timeout", "foreign_keys"]

/-- A character that belongs to no longer word or sign. -/
def isBreak (c : Char) : Bool := isSignChar c || c = ' '

/-- The text is one word. -/
def isWord (text : String) : Bool := !text.toList.isEmpty && text.toList.all isNameChar

/-- The words and signs of a piece. -/
def Piece.lexemes : Piece → List Lexeme
  | .word text => (cut .between text.toList).getD []
  | .name _ text => if text = "*" then [.sign "*"] else [.word text]

/-- The words and signs of a statement. -/
def lexemes (s : Statement) : List Lexeme := s.pieces.flatMap Piece.lexemes

/-- The name of a piece. -/
def Piece.name? : Piece → Option String
  | .word _ => none
  | .name _ text => some text

/-- The names in a statement, from left to right. -/
def names (s : Statement) : List String := s.pieces.filterMap Piece.name?

/-- The text begins with a blank or a sign that stands for itself. -/
def opens (text : String) : Bool := text.toList.head?.any isBreak

/-- The text ends with a blank or a sign that stands for itself. -/
def closes (text : String) : Bool := text.toList.getLast?.any isBreak

/-- Where two pieces meet there is a blank or a sign that stands for itself. -/
def Joined (p q : Piece) : Prop := closes p.text = true ∨ opens q.text = true

/-- The words of the text are words of the vocabulary. -/
def isFixed (text : String) : Bool :=
  match cut .between text.toList with
  | none => false
  | some lexemes => lexemes.all fun
    | .word word => word ∈ vocabulary
    | .sign _ => true

variable {state : Cutting} {c : Char} {before after : List Char}

/-! ## Cutting at a joint -/

theorem break_cases (breaks : isBreak c = true) :
    c = '(' ∨ c = ')' ∨ c = ',' ∨ c = '?' ∨ c = '*' ∨ c = ' ' := by
  simpa [isBreak, isSignChar, or_assoc] using breaks

/-- Before a break, what is being cut is complete. -/
theorem cut_break (state : Cutting) (breaks : isBreak c = true) (after : List Char) :
    cut state (c :: after) = (cut .between (c :: after)).map (state.complete ++ ·) := by
  rcases break_cases breaks with rfl | rfl | rfl | rfl | rfl | rfl <;>
    simp [cut, isNameChar, isComparisonChar, isSignChar, Cutting.complete, Function.comp_def]

/-- Behind a break, cutting begins anew. -/
theorem cut_after_break (breaks : isBreak c = true) (after : List Char) :
    cut .between (c :: after) =
      (cut .between [c]).bind fun x => (cut .between after).map (x ++ ·) := by
  rcases break_cases breaks with rfl | rfl | rfl | rfl | rfl | rfl <;>
    simp [cut, isNameChar, isComparisonChar, isSignChar, Cutting.complete]

/-- A blank in front is no part of a word or sign. -/
theorem cut_blank (cs : List Char) : cut .between (' ' :: cs) = cut .between cs := by
  simp [cut, isNameChar, isComparisonChar, isSignChar, Cutting.complete]

theorem cut_before (state : Cutting) (before : List Char)
    (apart : ∀ state, cut state after = (cut .between after).map (state.complete ++ ·)) :
    cut state (before ++ after) =
      (cut state before).bind fun x => (cut .between after).map (x ++ ·) := by
  have later {state : Cutting} {rest : List Char} (first : List Lexeme)
      (ih : cut state (rest ++ after) =
        (cut state rest).bind fun x => (cut .between after).map (x ++ ·)) :
      (cut state (rest ++ after)).map (first ++ ·) =
        ((cut state rest).map (first ++ ·)).bind fun x => (cut .between after).map (x ++ ·) := by
    rw [ih, Option.map_bind, Option.bind_map]
    simp [Function.comp_def]
  induction before generalizing state with
  | nil => exact apart state
  | cons c rest ih =>
    simp only [List.cons_append, cut]
    split
    · split
      · exact ih _
      · exact later _ (ih _)
    · split
      · split
        · exact ih _
        · exact later _ (ih _)
      · split
        · have signs := later (state.complete ++ [.sign c.toString]) (ih .between)
          simpa using signs
        · split
          · exact later _ (ih _)
          · rfl

theorem cut_behind (state : Cutting) (before : List Char) (breaks : isBreak c = true)
    (after : List Char) : cut state ((before ++ [c]) ++ after) =
      (cut state (before ++ [c])).bind fun x => (cut .between after).map (x ++ ·) := by
  rw [List.append_assoc, List.singleton_append,
    cut_before state before fun state => cut_break state breaks after,
    cut_before state before fun state => cut_break state breaks [],
    cut_after_break breaks after, Option.bind_assoc]
  congr 1
  funext x
  cases cut .between [c] with
  | none => rfl
  | some y => simp [Function.comp_def]

theorem isWord_of_isIdentifier {name : String} (identifier : isIdentifier name = true) :
    isWord name = true := by
  unfold isIdentifier at identifier
  unfold isWord
  cases chars : name.toList with
  | nil => simp [chars, isIdentifierChars] at identifier
  | cons c rest =>
    rw [chars] at identifier
    simp only [isIdentifierChars, isNameStart, Bool.and_eq_true, Bool.or_eq_true] at identifier
    obtain ⟨⟨start, named⟩, -⟩ := identifier
    have first : isNameChar c = true := by
      rcases start with letter | underscore
      · simp [isNameChar, Char.isAlphanum, letter]
      · simp [isNameChar, underscore]
    simp [first, named]

theorem cut_word {text : String} (word : isWord text = true) :
    cut .between text.toList = some [.word text] := by
  have go (seen : List Char) : ∀ rest : List Char, rest.all isNameChar = true →
      cut (.word seen) rest = some [.word (String.ofList (seen.reverse ++ rest))] := by
    intro rest named
    induction rest generalizing seen with
    | nil => simp [cut, Cutting.complete]
    | cons c rest ih =>
      rw [List.all_cons, Bool.and_eq_true] at named
      rw [cut, if_pos named.1, ih _ named.2]
      simp
  cases chars : text.toList with
  | nil => simp [isWord, chars] at word
  | cons c rest =>
    simp only [isWord, chars, List.isEmpty_cons, Bool.not_false, Bool.true_and, List.all_cons,
      Bool.and_eq_true] at word
    have whole : String.ofList (c :: rest) = text := by rw [← chars, String.ofList_toList]
    simp [cut, word.1, go [c] rest word.2, Cutting.complete, whole]

/-! ## Texts of pieces -/

theorem cut_closed {text : String} (closed : closes text = true) {lexemes : List Lexeme}
    (first : cut .between text.toList = some lexemes) (after : List Char) :
    cut .between (text.toList ++ after) = (cut .between after).map (lexemes ++ ·) := by
  obtain ⟨c, last, breaks⟩ := (Option.any_eq_true _ _).mp closed
  obtain ⟨before, chars⟩ := List.getLast?_eq_some_iff.mp last
  rw [chars] at first ⊢
  rw [cut_behind .between before breaks after, first, Option.bind_some]

theorem cut_opened {text : String} (opened : opens text = true) {lexemes : List Lexeme}
    (first : cut .between before = some lexemes) (after : List Char) :
    cut .between (before ++ (text.toList ++ after)) =
      (cut .between (text.toList ++ after)).map (lexemes ++ ·) := by
  obtain ⟨c, head, breaks⟩ := (Option.any_eq_true _ _).mp opened
  obtain ⟨rest, chars⟩ := List.head?_eq_some_iff.mp head
  rw [chars, List.cons_append, cut_before .between before fun state => cut_break state breaks _,
    first, Option.bind_some]

/-- Joined pieces are cut one by one. -/
theorem cut_pieces {pieces : List Piece} (joined : pieces.IsChain Joined)
    (cuts : ∀ p ∈ pieces, cut .between p.text.toList = some p.lexemes) :
    cut .between (pieces.flatMap (·.text.toList)) = some (pieces.flatMap Piece.lexemes) := by
  induction joined with
  | nil => rfl
  | singleton p => simp [cuts p]
  | @cons_cons p q rest joint _ ih =>
    have others := ih fun piece member => cuts piece (List.mem_cons_of_mem _ member)
    have first := cuts p (List.mem_cons_self ..)
    have joins : cut .between (p.text.toList ++ (q :: rest).flatMap (·.text.toList)) =
        (cut .between ((q :: rest).flatMap (·.text.toList))).map (p.lexemes ++ ·) :=
      joint.elim (fun closed => cut_closed closed first _) fun opened => cut_opened opened first _
    rw [List.flatMap_cons, joins, others]
    rfl

/-- A name is one word, or the star. -/
theorem cut_name {text : String} (named : isWord text = true ∨ text = "*") (place : Place) :
    cut .between text.toList = some (Piece.name place text).lexemes := by
  rcases named with word | rfl
  · have different : text ≠ "*" := by
      rintro rfl
      exact absurd word (by decide)
    rw [Piece.lexemes, if_neg different]
    exact cut_word word
  · rfl

theorem cut_fixed {text : String} (known : isFixed text = true) :
    cut .between text.toList = some (Piece.word text).lexemes ∧
      ∀ word, .word word ∈ (Piece.word text).lexemes → word ∈ vocabulary := by
  unfold isFixed at known
  cases lexemes : cut .between text.toList with
  | none => simp [lexemes] at known
  | some l =>
    rw [lexemes] at known
    rw [Piece.lexemes, lexemes, Option.getD_some]
    refine ⟨rfl, fun word member => ?_⟩
    simpa using List.all_eq_true.mp known _ member

theorem isFixed_of_cut {text : String} {l : List Lexeme} (cuts : cut .between text.toList = some l)
    (known : ∀ word, .word word ∈ l → word ∈ vocabulary) : isFixed text = true := by
  rw [isFixed, cuts]
  refine List.all_eq_true.mpr fun lexeme member => ?_
  cases lexeme with
  | word word => simpa using known word member
  | sign _ => rfl

theorem cut_append {first second : String} (known : isFixed first = true)
    (known' : isFixed second = true) (joint : closes first = true ∨ opens second = true) :
    cut .between (first ++ second).toList =
      some ((Piece.word first).lexemes ++ (Piece.word second).lexemes) := by
  obtain ⟨cuts, -⟩ := cut_fixed known
  obtain ⟨cuts', -⟩ := cut_fixed known'
  rw [String.toList_append]
  rcases joint with closed | opened
  · rw [cut_closed closed cuts, cuts', Option.map_some]
  · have both := cut_opened opened cuts []
    rwa [List.append_nil, cuts', Option.map_some] at both

theorem isFixed_append {first second : String} (known : isFixed first = true)
    (known' : isFixed second = true) (joint : closes first = true ∨ opens second = true) :
    isFixed (first ++ second) = true := by
  refine isFixed_of_cut (cut_append known known' joint) fun word member => ?_
  exact (List.mem_append.mp member).elim ((cut_fixed known).2 word) ((cut_fixed known').2 word)

theorem lexemes_append {first second : String} (known : isFixed first = true)
    (known' : isFixed second = true) (joint : closes first = true ∨ opens second = true) :
    (Piece.word (first ++ second)).lexemes =
      (Piece.word first).lexemes ++ (Piece.word second).lexemes := by
  rw [Piece.lexemes, cut_append known known' joint, Option.getD_some]

theorem placeholders_succ (count : Nat) :
    TestOp.placeholders (count + 2) = "?, " ++ TestOp.placeholders (count + 1) :=
  String.intercalate_cons_cons

theorem isFixed_placeholders (count : Nat) : isFixed (TestOp.placeholders count) = true := by
  induction count with
  | zero => rfl
  | succ count ih =>
    cases count with
    | zero => rfl
    | succ count =>
      rw [placeholders_succ]
      exact isFixed_append (by decide) ih (.inl (by decide))

theorem opens_append {first : String} (opened : opens first = true) (second : String) :
    opens (first ++ second) = true := by
  obtain ⟨c, head, breaks⟩ := (Option.any_eq_true _ _).mp opened
  obtain ⟨rest, chars⟩ := List.head?_eq_some_iff.mp head
  simp [opens, String.toList_append, chars, breaks]

theorem isFixed_test (op : TestOp) : isFixed (" " ++ op.sql) = true := by
  cases op with
  | compare op => cases op <;> decide
  | member op count =>
    have bracketed : isFixed ("(" ++ TestOp.placeholders count ++ ")") = true :=
      isFixed_append (isFixed_append (by decide) (isFixed_placeholders count) (.inl (by decide)))
        (by decide) (.inr (by decide))
    have whole : " " ++ (TestOp.member op count).sql =
        (" " ++ op.sql ++ " ") ++ ("(" ++ TestOp.placeholders count ++ ")") := by
      simp [TestOp.sql, ← String.toList_inj]
    rw [whole]
    exact isFixed_append (by cases op <;> decide) bracketed (.inl (by cases op <;> decide))

/-- Fixed words with blanks between them are fixed. -/
theorem isFixed_words {words : List String} (some' : words ≠ [])
    (known : ∀ word ∈ words, isFixed (" " ++ word) = true) :
    isFixed (" " ++ " ".intercalate words) = true := by
  induction words with
  | nil => exact absurd rfl some'
  | cons word rest ih =>
    rw [List.forall_mem_cons] at known
    cases rest with
    | nil => simpa using known.1
    | cons next rest =>
      have opened : opens (" " ++ " ".intercalate (next :: rest)) = true := opens_append (by decide) _
      have whole : " " ++ " ".intercalate (word :: next :: rest) =
          (" " ++ word) ++ (" " ++ " ".intercalate (next :: rest)) := by
        simp only [String.intercalate_cons_cons, String.append_assoc]
      rw [whole]
      exact isFixed_append known.1 (ih (List.cons_ne_nil _ _) known.2) (.inr opened)

theorem isFixed_definition (d : ColumnDef) : isFixed (" " ++ d.sql) = true :=
  isFixed_words (by simp [ColumnDef.sqlWords]) (d.forall_sqlWords (by decide))

theorem isFixed_direction (d : Direction) : isFixed (" " ++ d.sql) = true := by
  cases d <;> decide

theorem isFixed_values (count : Nat) :
    isFixed (") VALUES (" ++ TestOp.placeholders count ++ ")") = true :=
  isFixed_append (isFixed_append (by decide) (isFixed_placeholders count) (.inl (by decide)))
    (by decide) (.inr (by decide))

/-! ## Pieces of statements -/

theorem forall_separated {property : Piece → Prop} {separator : String}
    (between : property (.word separator)) {rows : List (List Piece)}
    (holds : ∀ row ∈ rows, ∀ p ∈ row, property p) : ∀ p ∈ separated separator rows, property p := by
  fun_induction separated separator rows with
  | case1 => exact List.forall_mem_nil _
  | case2 row => exact holds row (List.mem_singleton_self _)
  | case3 row rest more ih =>
    have others := ih fun row member => holds row (List.mem_cons_of_mem _ member)
    exact List.forall_mem_append.mpr
      ⟨holds row (List.mem_cons_self ..), List.forall_mem_cons.mpr ⟨between, others⟩⟩

/-- Behind a word that closes, anything may stand. -/
theorem joined_word (text : String) (closed : closes text = true) {rest : List Piece}
    (joined : rest.IsChain Joined) : (.word text :: rest).IsChain Joined := by
  cases joined with
  | nil => exact .singleton _
  | singleton p => exact .cons_cons (.inl closed) (.singleton p)
  | cons_cons joint joined => exact .cons_cons (.inl closed) (.cons_cons joint joined)

/-- Behind a name, a word must open. -/
theorem joined_name (place : Place) (name : String) {rest : List Piece}
    (joined : rest.IsChain Joined) (opened : ∀ p ∈ rest.head?, opens p.text = true) :
    (.name place name :: rest).IsChain Joined := by
  cases joined with
  | nil => exact .singleton _
  | singleton p => exact .cons_cons (.inr (opened p rfl)) (.singleton p)
  | cons_cons joint joined => exact .cons_cons (.inr (opened _ rfl)) (.cons_cons joint joined)

theorem joined_append {first second : List Piece} (joined : first.IsChain Joined)
    (joined' : second.IsChain Joined) (opened : ∀ p ∈ second.head?, opens p.text = true) :
    (first ++ second).IsChain Joined :=
  joined.append joined' fun _ _ q head => .inr (opened q head)

theorem joined_last {pieces : List Piece} (joined : pieces.IsChain Joined) (text : String)
    (opened : opens text = true) : (pieces ++ [Piece.word text]).IsChain Joined := by
  refine joined_append joined (.singleton _) ?_
  rintro p ⟨⟩
  exact opened

theorem joined_separated {separator : String} (opened : opens separator = true)
    (closed : closes separator = true) {rows : List (List Piece)}
    (joined : ∀ row ∈ rows, row.IsChain Joined) : (separated separator rows).IsChain Joined := by
  fun_induction separated separator rows with
  | case1 => exact .nil
  | case2 row => exact joined row (List.mem_singleton_self _)
  | case3 row rest more ih =>
    have others := ih fun row member => joined row (List.mem_cons_of_mem _ member)
    refine joined_append (joined row (List.mem_cons_self ..)) (joined_word separator closed others) ?_
    rintro p ⟨⟩
    exact opened

/-- Names that are each followed by a text, with a word between them. -/
theorem joined_rows {α : Type} (separator : String) (opened : opens separator = true)
    (closed : closes separator = true) (place : Place) (name follows : α → String)
    (opening : ∀ a, opens (follows a) = true) (l : List α) :
    (separated separator (l.map fun a => [.name place (name a), .word (follows a)])).IsChain Joined := by
  refine joined_separated opened closed fun row member => ?_
  obtain ⟨a, -, rfl⟩ := List.mem_map.mp member
  exact .cons_cons (.inr (opening a)) (.singleton _)

theorem joined_names (place : Place) (names : List String) :
    (nameList place names).IsChain Joined := by
  refine joined_separated (by decide) (by decide) fun row member => ?_
  obtain ⟨n, -, rfl⟩ := List.mem_map.mp member
  exact .singleton _

theorem joined_where (tests : List Test) : (wherePieces tests).IsChain Joined := by
  unfold wherePieces
  split
  · exact .nil
  · exact joined_word _ (by decide) (joined_rows _ (by decide) (by decide) .field Test.field _
      (fun t => opens_append (by decide) t.op.sql) tests)

theorem opens_where (tests : List Test) : ∀ p ∈ (wherePieces tests).head?, opens p.text = true := by
  unfold wherePieces
  split
  · simp
  · rintro p ⟨⟩
    decide

theorem joined_order (keys : List SortKey) : (orderPieces keys).IsChain Joined := by
  unfold orderPieces
  split
  · exact .nil
  · exact joined_word _ (by decide) (joined_rows _ (by decide) (by decide) .key SortKey.column _
      (fun k => opens_append (by decide) k.direction.sql) keys)

theorem opens_order (keys : List SortKey) : ∀ p ∈ (orderPieces keys).head?, opens p.text = true := by
  unfold orderPieces
  split
  · simp
  · rintro p ⟨⟩
    decide

theorem joined_pieces (s : Statement) : s.pieces.IsChain Joined := by
  -- A fixed word closes before a name, and what stands behind a name opens, since no name closes.
  have opened {text : String} (opened : opens text = true) :
      ∀ p ∈ [Piece.word text].head?, opens p.text = true := by
    rintro p ⟨⟩
    exact opened
  cases s with
  | createTable table columns =>
    have rows := joined_rows ", " (by decide) (by decide) .column Prod.fst
      (fun e : String × ColumnDef => " " ++ e.2.sql) (fun e => opens_append (by decide) e.2.sql) columns
    have head := joined_word "CREATE TABLE IF NOT EXISTS " (by decide)
      (joined_name .table table (joined_word " (" (by decide) rows) (by rintro p ⟨⟩; decide))
    exact joined_last head ")" (by decide)
  | addColumn table column definition =>
    have last := joined_name .column column (.singleton (.word (" " ++ definition.sql)))
      (opened (opens_append (by decide) _))
    exact joined_word _ (by decide) (joined_name _ table (joined_word _ (by decide) last)
      (by rintro p ⟨⟩; decide))
  | createIndex table column =>
    have last := joined_name .column column (.singleton (.word ")")) (opened (by decide))
    exact joined_word _ (by decide) (joined_name _ _ (joined_word _ (by decide) (joined_name _ table
      (joined_word _ (by decide) last) (by rintro p ⟨⟩; decide))) (by rintro p ⟨⟩; decide))
  | dropTable table => exact joined_word _ (by decide) (.singleton _)
  | insert table columns =>
    have head := joined_word "INSERT INTO " (by decide) (joined_name .table table
      (joined_word " (" (by decide) (joined_names .column columns)) (by rintro p ⟨⟩; decide))
    exact joined_last head (") VALUES (" ++ TestOp.placeholders columns.length ++ ")")
      (opens_append (opens_append (by decide) _) _)
  | update table columns tests =>
    have rows := joined_rows ", " (by decide) (by decide) .assigned id
      (fun _ => " = ?") (fun _ => by decide) columns
    have head := joined_word "UPDATE " (by decide) (joined_name .table table
      (joined_word " SET " (by decide) rows) (by rintro p ⟨⟩; decide))
    exact joined_append head (joined_where tests) (opens_where tests)
  | delete table tests =>
    have head := joined_word "DELETE FROM " (by decide) (.singleton (.name .table table))
    exact joined_append head (joined_where tests) (opens_where tests)
  | select projection table tests keys =>
    have head := joined_word "SELECT " (by decide) (joined_names .projected projection)
    have from' := joined_word " FROM " (by decide) (.singleton (.name .table table))
    have upTo := joined_append head from' (by rintro p ⟨⟩; decide)
    exact joined_append (joined_append upTo (joined_where tests) (opens_where tests))
      (joined_order keys) (opens_order keys)
  | tableList => exact .singleton _
  | tableInfo table =>
    exact joined_word _ (by decide) (joined_name _ _ (.singleton _) (opened (by decide)))
  | setting s => exact .singleton _
  | verbatim text => exact .singleton _

/-- A name, or a piece whose words are fixed. -/
def Piece.known : Piece → Bool
  | .word text => isFixed text
  | .name _ _ => true

theorem known_rows {α : Type} (separator : String) (known : isFixed separator = true) (place : Place)
    (name follows : α → String) (known' : ∀ a, isFixed (follows a) = true) (l : List α) :
    ∀ p ∈ separated separator (l.map fun a => [.name place (name a), .word (follows a)]), p.known = true := by
  refine forall_separated known fun row member => ?_
  obtain ⟨a, -, rfl⟩ := List.mem_map.mp member
  simpa [Piece.known] using known' a

theorem known_names (place : Place) (names : List String) :
    ∀ p ∈ nameList place names, p.known = true := by
  refine forall_separated (by decide) fun row member => ?_
  obtain ⟨n, -, rfl⟩ := List.mem_map.mp member
  simp [Piece.known]

theorem known_where (tests : List Test) : ∀ p ∈ wherePieces tests, p.known = true := by
  unfold wherePieces
  split
  · exact List.forall_mem_nil _
  · exact List.forall_mem_cons.mpr ⟨by decide,
      known_rows _ (by decide) .field Test.field _ (fun t => isFixed_test t.op) tests⟩

theorem known_order (keys : List SortKey) : ∀ p ∈ orderPieces keys, p.known = true := by
  unfold orderPieces
  split
  · exact List.forall_mem_nil _
  · exact List.forall_mem_cons.mpr ⟨by decide,
      known_rows _ (by decide) .key SortKey.column _ (fun k => isFixed_direction k.direction) keys⟩

/-- The words that are no names are fixed, unless the caller gave the text. -/
theorem known_pieces {s : Statement} (given : ∀ text, s ≠ .verbatim text) :
    ∀ p ∈ s.pieces, p.known = true := by
  cases s with
  | createTable table columns =>
    have rows := known_rows ", " (by decide) .column Prod.fst
      (fun e : String × ColumnDef => " " ++ e.2.sql) (fun e => isFixed_definition e.2) columns
    simp only [pieces, List.forall_mem_append, List.forall_mem_cons]
    exact ⟨⟨⟨by decide, rfl, by decide, List.forall_mem_nil _⟩, rows⟩, by decide, List.forall_mem_nil _⟩
  | addColumn table column definition =>
    simp only [pieces, List.forall_mem_cons]
    exact ⟨by decide, rfl, by decide, rfl, isFixed_definition definition, List.forall_mem_nil _⟩
  | createIndex table column =>
    simp only [pieces, List.forall_mem_cons]
    exact ⟨by decide, rfl, by decide, rfl, by decide, rfl, by decide, List.forall_mem_nil _⟩
  | dropTable table => exact List.forall_mem_cons.mpr ⟨by decide, by simp [Piece.known]⟩
  | insert table columns =>
    simp only [pieces, List.forall_mem_append, List.forall_mem_cons]
    exact ⟨⟨⟨by decide, rfl, by decide, List.forall_mem_nil _⟩, known_names .column columns⟩,
      isFixed_values columns.length, List.forall_mem_nil _⟩
  | update table columns tests =>
    have rows := known_rows ", " (by decide) .assigned id (fun _ => " = ?")
      (fun _ => by decide) columns
    simp only [pieces, List.forall_mem_append, List.forall_mem_cons]
    exact ⟨⟨⟨by decide, rfl, by decide, List.forall_mem_nil _⟩, rows⟩, known_where tests⟩
  | delete table tests =>
    simp only [pieces, List.forall_mem_append, List.forall_mem_cons]
    exact ⟨⟨by decide, rfl, List.forall_mem_nil _⟩, known_where tests⟩
  | select projection table tests keys =>
    simp only [pieces, List.forall_mem_append, List.forall_mem_cons]
    exact ⟨⟨⟨⟨⟨by decide, List.forall_mem_nil _⟩, known_names .projected projection⟩,
      by decide, rfl, List.forall_mem_nil _⟩, known_where tests⟩, known_order keys⟩
  | tableList => exact List.forall_mem_cons.mpr ⟨by decide, List.forall_mem_nil _⟩
  | tableInfo table =>
    simp only [pieces, List.forall_mem_cons]
    exact ⟨by decide, rfl, by decide, List.forall_mem_nil _⟩
  | setting s =>
    simp only [pieces, List.forall_mem_cons]
    exact ⟨by cases s <;> decide, List.forall_mem_nil _⟩
  | verbatim text => exact absurd rfl (given text)

theorem toList_text (s : Statement) : s.text.toList = s.pieces.flatMap (·.text.toList) := by
  rw [text, String.toList_join, List.flatMap_map]

/-- A text is cut into the words and signs of its statement. -/
theorem cut_text {s : Statement} (given : ∀ text, s ≠ .verbatim text)
    (named : ∀ name ∈ s.names, isWord name = true ∨ name = "*") :
    cut .between s.text.toList = some s.lexemes := by
  rw [toList_text]
  refine cut_pieces s.joined_pieces fun p member => ?_
  cases p with
  | word text => exact (cut_fixed (known_pieces given _ member)).1
  | name place name => exact cut_name (named name (List.mem_filterMap.mpr ⟨_, member, rfl⟩)) place

/-- A word of a statement is a name or fixed. -/
theorem mem_lexemes {s : Statement} (given : ∀ text, s ≠ .verbatim text) {word : String}
    (member : .word word ∈ s.lexemes) : word ∈ vocabulary ∨ word ∈ s.names ∧ word ≠ "*" := by
  obtain ⟨p, piece, here⟩ := List.mem_flatMap.mp member
  cases p with
  | word text => exact .inl ((cut_fixed (known_pieces given _ piece)).2 word here)
  | name place name =>
    rw [Piece.lexemes] at here
    split at here
    · simp at here
    · rename_i different
      obtain rfl : word = name := by simpa using here
      exact .inr ⟨List.mem_filterMap.mpr ⟨_, piece, rfl⟩, different⟩

/-! ## Names of statements -/

theorem names_separated (separator : String) (rows : List (List Piece)) :
    (separated separator rows).filterMap Piece.name? = rows.flatMap (·.filterMap Piece.name?) := by
  fun_induction separated separator rows with
  | case1 => rfl
  | case2 row => simp
  | case3 row rest more ih =>
    rw [List.filterMap_append, List.filterMap_cons, ih, List.flatMap_cons]
    rfl

theorem names_rows {α : Type} (separator : String) (place : Place) (name follows : α → String)
    (l : List α) : (separated separator (l.map fun a => [.name place (name a), .word (follows a)])).filterMap
      Piece.name? = l.map name := by
  rw [names_separated, List.flatMap_map]
  simp [Piece.name?, List.filterMap_cons, List.map_eq_flatMap]

theorem names_nameList (place : Place) (l : List String) :
    (nameList place l).filterMap Piece.name? = l := by
  rw [nameList, names_separated, List.flatMap_map]
  simp [Piece.name?]

theorem names_where (tests : List Test) :
    (wherePieces tests).filterMap Piece.name? = tests.map (·.field) := by
  cases tests with
  | nil => rfl
  | cons test tests => exact names_rows " AND " .field Test.field _ (test :: tests)

theorem names_order (keys : List SortKey) :
    (orderPieces keys).filterMap Piece.name? = keys.map (·.column) := by
  cases keys with
  | nil => rfl
  | cons key keys => exact names_rows ", " .key SortKey.column _ (key :: keys)

theorem names_eq (s : Statement) : s.names = match s with
    | .createTable table columns => table :: columns.map Prod.fst
    | .addColumn table column _ => [table, column]
    | .createIndex table column => [indexName table column, table, column]
    | .dropTable table => [table]
    | .insert table columns => table :: columns
    | .update table columns tests => table :: (columns ++ tests.map (·.field))
    | .delete table tests => table :: tests.map (·.field)
    | .select projection table tests keys =>
      projection ++ table :: (tests.map (·.field) ++ keys.map (·.column))
    | .tableInfo table => [table]
    | .tableList | .setting _ | .verbatim _ => [] := by
  cases s with
  | createTable table columns =>
    have rows := names_rows ", " .column (Prod.fst : String × ColumnDef → String)
      (fun e => " " ++ e.2.sql) columns
    simp [names, pieces, Piece.name?, List.filterMap_cons, rows]
  | update table columns tests =>
    have rows := names_rows ", " .assigned id (fun _ => " = ?") columns
    simp only [id] at rows
    simp [names, pieces, Piece.name?, List.filterMap_cons, rows, names_where]
  | _ =>
    simp [names, pieces, Piece.name?, List.filterMap_cons, names_nameList, names_where, names_order]

end LiveTable.Statement
