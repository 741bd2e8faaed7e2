import LiveTable.Identifier
import LiveTable.Yaml.Node

/-!
# Mappings of words

A block mapping of words to words is written on a line for each entry. Lines like that are read back as the
mapping: the characters have their places, the lexemes of a line are read in three steps, and the entries stand
behind each other.
-/

namespace LiveTable.Yaml

variable {c : Char} {word : List Char}

/-- Lines of a mapping: a word, and the word that it stands for. -/
def lines (entries : List (String × String)) : List Char :=
  entries.flatMap fun (name, word) => name.toList ++ ':' :: ' ' :: word.toList ++ ['\n']

theorem ne_of_isNameChar (named : isNameChar c = true) (other : Char) (sign : isNameChar other = false) :
    (c = other) = False := by
  refine eq_false ?_
  rintro rfl
  rw [named] at sign
  cases sign

theorem placesFrom_word (named : isNameChar c = true) (line column index : Nat) (rest : List Char) :
    placesFrom line column index (c :: rest) =
      ⟨c, line, column, index⟩ :: placesFrom line (column + 1) (index + 1) rest := by
  have ne := ne_of_isNameChar named
  rw [placesFrom]
  · simp (disch := decide) [ne, isBreak]
  · rintro others rfl
    cases named

theorem placesFrom_blank (line column index : Nat) (rest : List Char) :
    placesFrom line column index (' ' :: rest) =
      ⟨' ', line, column, index⟩ :: placesFrom line (column + 1) (index + 1) rest := by
  simp [placesFrom, isBreak]

theorem placesFrom_colon (line column index : Nat) (rest : List Char) :
    placesFrom line column index (':' :: rest) =
      ⟨':', line, column, index⟩ :: placesFrom line (column + 1) (index + 1) rest := by
  simp [placesFrom, isBreak]

theorem isMarker_other {sign : Char} (other : c ≠ sign) (line column index : Nat) (rest : List Place) :
    isMarker sign (⟨c, line, column, index⟩ :: rest) = false := by
  match rest with
  | [] => rfl
  | [_] => rfl
  | _ :: _ :: _ => simp [isMarker, other]

theorem isMarker_word (named : isNameChar c = true) {sign : Char} (other : isNameChar sign = false)
    (line column index : Nat) (rest : List Place) : isMarker sign (⟨c, line, column, index⟩ :: rest) = false :=
  isMarker_other (ne_of_isNameChar named sign other).mp line column index rest

/-- A word is read as it is. -/
theorem plainFrom_word (named : ∀ c ∈ word, isNameChar c = true) (margin line column index : Nat)
    (read rest : List Char) : plainFrom false margin read .none (placesFrom line column index (word ++ rest)) =
      plainFrom false margin (word.reverse ++ read) .none
        (placesFrom line (column + word.length) (index + word.length) rest) := by
  induction word generalizing column index read with
  | nil => rfl
  | cons c word ih =>
    rw [List.forall_mem_cons] at named
    have ne := ne_of_isNameChar named.1
    have gap : Gap.none.isNone = true ∧ Gap.none.broken = false ∧ Gap.none.chars = [] := ⟨rfl, rfl, rfl⟩
    rw [List.cons_append, placesFrom_word named.1, plainFrom]
    simp (disch := decide) [isBlank, isBreak, atDocumentMarker, isMarker_word named.1, ne, gap, ih named.2,
      Nat.add_assoc, Nat.add_comm 1]

/-- The name of an entry ends at the colon. -/
theorem plainFrom_colon (margin line column index : Nat) (read rest : List Char) :
    plainFrom false margin read .none (placesFrom line column index (':' :: ' ' :: rest)) =
      some ⟨String.ofList read.reverse, false, placesFrom line column index (':' :: ' ' :: rest)⟩ := by
  have marker (others : List Place) : atDocumentMarker (⟨':', line, column, index⟩ :: others) = false := by
    rw [atDocumentMarker, isMarker_other (by decide), isMarker_other (by decide)]
    rfl
  have gap : Gap.none.isNone = true ∧ Gap.none.broken = false := ⟨rfl, rfl⟩
  simp [placesFrom_colon, placesFrom_blank, plainFrom, isBreak, isBlank, marker, gap, atGap]

/-- What follows a line: another one, or nothing. -/
def StartsLine (text : List Char) : Prop := ∀ c, text.head? = some c → isNameChar c = true

/-- What an entry stands for ends with the line. -/
theorem plainFrom_break {rest : List Char} (starts : StartsLine rest) (line column index : Nat)
    (read : List Char) : plainFrom false 1 read .none (placesFrom line column index ('\n' :: rest)) =
      some ⟨String.ofList read.reverse, true, placesFrom (line + 1) 0 (index + 1) rest⟩ := by
  have gap : (Gap.none.add '\n').broken = true := rfl
  have place : placesFrom line column index ('\n' :: rest) =
      ⟨'\n', line, column, index⟩ :: placesFrom (line + 1) 0 (index + 1) rest := by simp [placesFrom, isBreak]
  rw [place, plainFrom]
  cases rest with
  | nil => simp [placesFrom, plainFrom, isBlank, isBreak, gap]
  | cons c rest =>
    -- A line that begins without a blank is not indented, so it cannot continue the scalar.
    have named : isNameChar c = true := starts c rfl
    have ne := ne_of_isNameChar named
    rw [placesFrom_word named, plainFrom]
    simp (disch := decide) [isBlank, isBreak, gap, ne]

/-- The reader at the start of a line. -/
def atLine (margin : Nat) (margins : List Nat) (lexemes : List Lexeme) (line index : Nat) (text : List Char) :
    Lexing := ⟨placesFrom line 0 index text, margin, margins, [none], true, lexemes⟩

/-- The reader behind the name of an entry. -/
def atColon (margin : Nat) (margins : List Nat) (lexemes : List Lexeme) (name : List Char) (line index : Nat)
    (text : List Char) : Lexing where
  rest := placesFrom line name.length (index + name.length) (':' :: ' ' :: text)
  margin
  margins
  keys := [some ⟨lexemes.length, line, 0, index, decide (margin = 1)⟩]
  keyAllowed := false
  lexemes := .scalar .plain (String.ofList name) :: lexemes

/-- The reader behind the colon of an entry. -/
def atBlank (lexemes : List Lexeme) (line column index : Nat) (text : List Char) : Lexing :=
  ⟨placesFrom line column index (' ' :: text), 1, [0], [none], false, lexemes⟩

/-- One step: blanks are passed over, and what stands there is read. -/
theorem run?_step {s s' next : Lexing} {a : Place} {rest : List Place} (skips : s.skip.dropStale? = some s')
    (here : s'.rest = a :: rest) (reads : (s'.close (a.column + 1)).read? a rest = some next) (fuel : Nat) :
    s.run? (fuel + 1) = next.run? fuel := by
  rw [Lexing.run?, skips]
  simp [here, reads]

/-- A letter begins a plain scalar, before which a key may be noted. -/
theorem read?_word (letter : isNameChar c = true) {s : Lexing} (block : s.inFlow = false)
    (line column index : Nat) (rest : List Place) :
    s.read? ⟨c, line, column, index⟩ rest = (do
      let s ← Lexing.saveKey? { s with rest } ⟨c, line, column, index⟩
      let plain ← plainFrom false s.margin [] .none (⟨c, line, column, index⟩ :: rest)
      some { s.emit (.scalar .plain plain.text) with rest := plain.rest, keyAllowed := plain.broken }) := by
  have ne := ne_of_isNameChar letter
  simp (disch := decide) [Lexing.read?, block, isMarker_word letter, ne, Lexing.beginsPlain, isBlank,
    Lexing.isIndicator]

/-- The margins at the start of the text, and those within the mapping. -/
def IsLevel (margin : Nat) (margins : List Nat) : Prop := margin = 0 ∧ margins = [] ∨ margin = 1 ∧ margins = [0]

section Steps

variable {margin : Nat} {margins : List Nat}

/-- The name of an entry is read, and noted as a key. -/
theorem run?_name (level : IsLevel margin margins) (letter : isNameChar c = true)
    (named : ∀ c ∈ word, isNameChar c = true) (fuel line index : Nat) (lexemes : List Lexeme) (text : List Char) :
    (atLine margin margins lexemes line index (c :: (word ++ ':' :: ' ' :: text))).run? (fuel + 1) =
      (atColon margin margins lexemes (c :: word) line index text).run? fuel := by
  have ne := ne_of_isNameChar letter
  have place := placesFrom_word letter line 0 index (word ++ ':' :: ' ' :: text)
  have plain := (plainFrom_word (List.forall_mem_cons.mpr ⟨letter, named⟩) margin line 0 index []
    (':' :: ' ' :: text)).trans (plainFrom_colon ..)
  rw [List.cons_append, place] at plain
  let s := atLine margin margins lexemes line index (c :: (word ++ ':' :: ' ' :: text))
  have skips : s.skip.dropStale? = some s := by
    simp (disch := decide) [s, atLine, Lexing.skip, place, Lexing.skipFrom, Lexing.inFlow, isBreak, ne,
      Lexing.dropStale?]
  have closes : s.close 1 = s := by rcases level with ⟨rfl, rfl⟩ | ⟨rfl, rfl⟩ <;> rfl
  have reads : (s.close 1).read? ⟨c, line, 0, index⟩
      (placesFrom line 1 (index + 1) (word ++ ':' :: ' ' :: text)) =
        some (atColon margin margins lexemes (c :: word) line index text) := by
    rw [closes, read?_word letter rfl]
    simp [s, Lexing.saveKey?, atLine, Lexing.dropKey?, plain, atColon, Lexing.emit, Lexing.inFlow]
  exact run?_step skips place reads fuel

/-- The colon makes the noted name a key; the mapping begins in front of its first key. -/
theorem run?_colon (level : IsLevel margin margins) (short : word.length ≤ 1024) (fuel line index : Nat)
    (lexemes : List Lexeme) (text : List Char) :
    (atColon margin margins lexemes word line index text).run? (fuel + 1) =
      (atBlank (.value :: .scalar .plain (String.ofList word) :: .key ::
          ((if margin = 0 then [.blockMapping] else []) ++ lexemes)) line (word.length + 1)
        (index + word.length + 1) text).run? fuel := by
  have near : ¬ index + 1024 < index + word.length := by omega
  let s := atColon margin margins lexemes word line index text
  have skips : s.skip.dropStale? = some s := by
    simp [s, atColon, Lexing.skip, placesFrom_colon, Lexing.skipFrom, Lexing.inFlow, isBreak, Lexing.dropStale?,
      near]
  have closes : s.close (word.length + 1) = s := by
    rcases level with ⟨rfl, rfl⟩ | ⟨rfl, rfl⟩ <;> simp [s, atColon, Lexing.close, Lexing.inFlow, Lexing.closeFrom]
  have reads : (s.close (word.length + 1)).read? ⟨':', line, word.length, index + word.length⟩
      (placesFrom line (word.length + 1) (index + word.length + 1) (' ' :: text)) =
      some (atBlank (.value :: .scalar .plain (String.ofList word) :: .key ::
          ((if margin = 0 then [.blockMapping] else []) ++ lexemes)) line (word.length + 1)
        (index + word.length + 1) text) := by
    have marks {sign : Char} (other : ':' ≠ sign) (rest : List Place) :
        isMarker sign (⟨':', line, word.length, index + word.length⟩ :: rest) = false := isMarker_other other ..
    rw [closes]
    have behind : lexemes.length + 1 + 1 - lexemes.length = 2 := by omega
    rcases level with ⟨rfl, rfl⟩ | ⟨rfl, rfl⟩ <;>
      simp (disch := decide) [s, Lexing.read?, marks, atGap, isBlank, atColon, Lexing.value?, Lexing.insert,
        Lexing.openBlock, Lexing.inFlow, Lexing.emit, atBlank, placesFrom_blank, behind]
  exact run?_step skips (placesFrom_colon ..) reads fuel

/-- The word that a name stands for is read with the end of its line. -/
theorem run?_value {rest : List Char} (starts : StartsLine rest) (letter : isNameChar c = true)
    (named : ∀ c ∈ word, isNameChar c = true) (fuel line column index : Nat) (lexemes : List Lexeme) :
    (atBlank lexemes line (column + 1) index (c :: (word ++ '\n' :: rest))).run? (fuel + 1) =
      (atLine 1 [0] (.scalar .plain (String.ofList (c :: word)) :: lexemes) (line + 1)
        (index + word.length + 3) rest).run? fuel := by
  have ne := ne_of_isNameChar letter
  have place := placesFrom_word letter line (column + 2) (index + 1) (word ++ '\n' :: rest)
  have plain := (plainFrom_word (List.forall_mem_cons.mpr ⟨letter, named⟩) 1 line (column + 2) (index + 1) []
    ('\n' :: rest)).trans (plainFrom_break starts ..)
  rw [List.cons_append, place] at plain
  let s : Lexing :=
    ⟨placesFrom line (column + 2) (index + 1) (c :: (word ++ '\n' :: rest)), 1, [0], [none], false, lexemes⟩
  have skips : (atBlank lexemes line (column + 1) index (c :: (word ++ '\n' :: rest))).skip.dropStale? =
      some s := by
    simp (disch := decide) [s, atBlank, placesFrom_blank, Lexing.skip, place, Lexing.skipFrom, Lexing.inFlow,
      isBreak, ne, Lexing.dropStale?]
  have closes : s.close (column + 2 + 1) = s := by
    simp [s, Lexing.close, Lexing.inFlow, Lexing.closeFrom]
  have reads : (s.close (column + 2 + 1)).read? ⟨c, line, column + 2, index + 1⟩
      (placesFrom line (column + 3) (index + 2) (word ++ '\n' :: rest)) =
      some (atLine 1 [0] (.scalar .plain (String.ofList (c :: word)) :: lexemes) (line + 1)
        (index + word.length + 3) rest) := by
    rw [closes, read?_word letter rfl]
    have index' : index + 1 + (word.length + 1) + 1 = index + word.length + 3 := by omega
    simp [s, Lexing.saveKey?, plain, atLine, Lexing.emit, index']
  exact run?_step skips place reads fuel

/-- The lexemes of an entry. -/
def entryLexemes (entry : String × String) : List Lexeme :=
  [.key, .scalar .plain entry.1, .value, .scalar .plain entry.2]

/-- A word that can stand in an entry: it is not empty, and not too long to be a key. -/
structure EntryWord (word : String) : Prop where
  ne_nil : word.toList ≠ []
  named : ∀ c ∈ word.toList, isNameChar c = true
  short : word.toList.length ≤ 1024

instance (word : String) : Decidable (EntryWord word) :=
  decidable_of_iff (word.toList ≠ [] ∧ word.toList.all isNameChar = true ∧ word.toList.length ≤ 1024)
    ⟨fun ⟨ne_nil, named, short⟩ => ⟨ne_nil, List.all_eq_true.mp named, short⟩,
      fun ⟨ne_nil, named, short⟩ => ⟨ne_nil, List.all_eq_true.mpr named, short⟩⟩

theorem lines_cons (entry : String × String) (entries : List (String × String)) : lines (entry :: entries) =
    entry.1.toList ++ ':' :: ' ' :: (entry.2.toList ++ '\n' :: lines entries) := by
  simp [lines]

theorem startsLine_lines {entries : List (String × String)}
    (words : ∀ e ∈ entries, EntryWord e.1 ∧ EntryWord e.2) : StartsLine (lines entries) := by
  intro c first
  cases entries with
  | nil => cases first
  | cons entry rest =>
    obtain ⟨name, -⟩ := words entry (List.mem_cons_self ..)
    obtain ⟨d, others, shape⟩ := List.exists_cons_of_ne_nil name.ne_nil
    rw [lines_cons, shape] at first
    cases first
    exact name.named _ (by simp [shape])

/-- The lexemes of a line are read in three steps. -/
theorem run?_line (level : IsLevel margin margins) {entry : String × String} {rest : List Char}
    (name : EntryWord entry.1) (word : EntryWord entry.2) (starts : StartsLine rest) (fuel line index : Nat)
    (lexemes : List Lexeme) :
    ∃ index', (atLine margin margins lexemes line index
        (entry.1.toList ++ ':' :: ' ' :: (entry.2.toList ++ '\n' :: rest))).run? (fuel + 3) =
      (atLine 1 [0] ((entryLexemes entry).reverse ++ ((if margin = 0 then [.blockMapping] else []) ++ lexemes))
        (line + 1) index' rest).run? fuel := by
  obtain ⟨c, first, named⟩ := List.exists_cons_of_ne_nil name.ne_nil
  obtain ⟨d, second, valued⟩ := List.exists_cons_of_ne_nil word.ne_nil
  have letters := name.named
  have letters' := word.named
  have short := name.short
  rw [named, List.forall_mem_cons] at letters
  rw [valued, List.forall_mem_cons] at letters'
  rw [named] at short
  rw [named, valued, List.cons_append, List.cons_append, run?_name level letters.1 letters.2,
    run?_colon level short, run?_value starts letters'.1 letters'.2, ← named, ← valued]
  simp only [String.ofList_toList]
  exact ⟨_, rfl⟩

end Steps

/-- The lexemes of the lines are read one line after the other, and then the mapping ends. -/
theorem run?_lines {entries : List (String × String)} (words : ∀ e ∈ entries, EntryWord e.1 ∧ EntryWord e.2)
    (fuel line index : Nat) (lexemes : List Lexeme) :
    ((atLine 1 [0] lexemes line index (lines entries)).run? (fuel + 1 + 3 * entries.length)).map (·.lexemes) =
      some (.blockEnd :: ((entries.flatMap entryLexemes).reverse ++ lexemes)) := by
  induction entries generalizing line index lexemes with
  | nil => rfl
  | cons entry rest ih =>
    rw [List.forall_mem_cons] at words
    -- How far the line reaches does not matter: no lexeme shows it.
    obtain ⟨index', reads⟩ := run?_line (.inr ⟨rfl, rfl⟩) words.1.1 words.1.2 (startsLine_lines words.2)
      (fuel + 1 + 3 * rest.length) line index lexemes
    have step : fuel + 1 + 3 * (entry :: rest).length = fuel + 1 + 3 * rest.length + 3 := by
      rw [List.length_cons]
      omega
    rw [lines_cons, step, reads, ih words.2]
    simp

/-- Every character has a place, if no two of them are one break. -/
theorem length_placesFrom {text : List Char} (single : ∀ c ∈ text, c ≠ '\r') (line column index : Nat) :
    (placesFrom line column index text).length = text.length := by
  induction text generalizing line column index with
  | nil => rfl
  | cons c rest ih =>
    rw [List.forall_mem_cons] at single
    rw [placesFrom]
    · repeat' split
      all_goals rw [List.length_cons, List.length_cons, ih single.2]
    · rintro others rfl
      exact absurd rfl single.1

/-- A line has a sign for each step in which it is read. -/
theorem le_length_lines (entries : List (String × String)) : 3 * entries.length ≤ (lines entries).length := by
  induction entries with
  | nil => exact Nat.zero_le _
  | cons entry rest ih =>
    simp only [lines_cons, List.length_append, List.length_cons]
    omega

/-- The characters of lines are those of words, and the signs between the words. -/
theorem mem_lines {entries : List (String × String)} (words : ∀ e ∈ entries, EntryWord e.1 ∧ EntryWord e.2) :
    ∀ c ∈ lines entries, isNameChar c = true ∨ c = ':' ∨ c = ' ' ∨ c = '\n' := by
  intro c member
  obtain ⟨entry, there, member⟩ := List.mem_flatMap.mp member
  obtain ⟨name, word⟩ := words entry there
  simp only [List.mem_append, List.mem_cons, List.not_mem_nil, or_false] at member
  rcases member with (here | rfl | rfl | here) | rfl
  · exact .inl (name.named c here)
  · exact .inr (.inl rfl)
  · exact .inr (.inr (.inl rfl))
  · exact .inl (word.named c here)
  · exact .inr (.inr (.inr rfl))

theorem isAllowed_word (named : isNameChar c = true) : isAllowed c = true := by
  have range : 48 ≤ c.toNat ∧ c.toNat ≤ 122 := by
    change (((decide (c.val ≥ 65 ∧ c.val ≤ 90) || (decide (c.val ≥ 97) && decide (c.val ≤ 122))) ||
      (decide (c.val ≥ 48) && decide (c.val ≤ 57))) || decide (c = '_')) = true at named
    simp only [Bool.or_eq_true, Bool.and_eq_true, decide_eq_true_eq, UInt32.le_iff_toNat_le, ge_iff_le] at named
    change ((65 ≤ c.toNat ∧ c.toNat ≤ 90 ∨ 97 ≤ c.toNat ∧ c.toNat ≤ 122) ∨ 48 ≤ c.toNat ∧ c.toNat ≤ 57) ∨
      c = '_' at named
    rcases named with ((capital | small) | digit) | rfl
    · omega
    · omega
    · omega
    · decide
  simp [isAllowed]
  omega

/-- Lines of words are read as a mapping. -/
theorem ofText?_lines {entry : String × String} {entries : List (String × String)}
    (words : ∀ e ∈ entry :: entries, EntryWord e.1 ∧ EntryWord e.2) :
    Lexeme.ofText? (String.ofList (lines (entry :: entries))) =
      some (.blockMapping :: (entry :: entries).flatMap entryLexemes ++ [.blockEnd]) := by
  have chars := mem_lines words
  -- The text has no byte-order mark, no character that must not stand in it and no double break.
  have allowed : (lines (entry :: entries)).all isAllowed = true := by
    rw [List.all_eq_true]
    intro c member
    rcases chars c member with named | rfl | rfl | rfl
    · exact isAllowed_word named
    all_goals decide
  have single : ∀ c ∈ lines (entry :: entries), c ≠ '\r' := by
    rintro c member rfl
    exact absurd (chars _ member) (by decide)
  have places : places? (String.ofList (lines (entry :: entries))) =
      some (placesFrom 0 0 0 (lines (entry :: entries))) := by
    unfold places?
    rw [String.toList_ofList]
    split
    · rename_i others mark
      exact absurd (chars '\ufeff' (by rw [mark]; exact List.mem_cons_self ..)) (by decide)
    · rw [if_pos allowed]
  obtain ⟨fuel, steps⟩ : ∃ fuel, (placesFrom 0 0 0 (lines (entry :: entries))).length + 1 =
      fuel + 1 + 3 * entries.length + 3 := by
    have enough := le_length_lines (entry :: entries)
    rw [length_placesFrom single]
    rw [List.length_cons] at enough
    exact ⟨(lines (entry :: entries)).length - 3 * (entries.length + 1), by omega⟩
  rw [List.forall_mem_cons] at words
  obtain ⟨index, reads⟩ := run?_line (.inl ⟨rfl, rfl⟩) words.1.1 words.1.2 (startsLine_lines words.2)
    (fuel + 1 + 3 * entries.length) 0 0 []
  have start : Lexing.start (placesFrom 0 0 0 (lines (entry :: entries))) =
      atLine 0 [] [] 0 0 (lines (entry :: entries)) := rfl
  obtain ⟨s, runs, same⟩ := Option.map_eq_some_iff.mp
    (run?_lines words.2 fuel 1 index ((entryLexemes entry).reverse ++ [.blockMapping]))
  have runs : (Lexing.start (placesFrom 0 0 0 (lines (entry :: entries)))).run?
      (fuel + 1 + 3 * entries.length + 3) = some s := by
    rw [start, lines_cons, reads]
    exact runs
  rw [Lexeme.ofText?, places, Option.bind_eq_bind, Option.bind_some, steps, runs]
  simp [same]

/-- The node of a word. -/
def wordNode (word : String) : Node := .scalar .plain none word

/-- An entry is read, and then those behind it. -/
theorem entries_step (pair : String × String) (fuel : Nat) (rest : List Lexeme) :
    (entries (fuel + 3)).run ⟨entryLexemes pair ++ rest, [], []⟩ =
      ((entries (fuel + 2)).run ⟨rest, [], []⟩).bind
        fun (more, reader) => some ((wordNode pair.1, wordNode pair.2) :: more, reader) := rfl

/-- The entries of a mapping are read one after the other. -/
theorem run_entries (pairs : List (String × String)) (fuel : Nat) :
    (entries (fuel + 3 + pairs.length)).run ⟨pairs.flatMap entryLexemes ++ [.blockEnd], [], []⟩ =
      some (pairs.map fun pair => (wordNode pair.1, wordNode pair.2), ⟨[], [], []⟩) := by
  induction pairs with
  | nil => rfl
  | cons pair rest ih =>
    have step : fuel + 3 + (pair :: rest).length = fuel + 1 + rest.length + 3 := by
      rw [List.length_cons]
      omega
    have next : fuel + 1 + rest.length + 2 = fuel + 3 + rest.length := by omega
    rw [List.flatMap_cons, List.append_assoc, step, entries_step, next, ih]
    rfl

theorem node_entries {fuel : Nat} {ls : List Lexeme} {pairs : List (Node × Node)} {r : Reader}
    (reads : (entries fuel).run ⟨ls, [], []⟩ = some (pairs, r)) :
    (node (fuel + 2) true false).run ⟨.blockMapping :: ls, [], []⟩ = some (.mapping none pairs, r) := by
  have opens : (node (fuel + 2) true false).run ⟨.blockMapping :: ls, [], []⟩ =
      ((entries fuel).run ⟨ls, [], []⟩).bind fun (pairs, r) => some (.mapping none pairs, r) := rfl
  rw [opens, reads]
  rfl

/-- A document that begins with a mapping is the mapping. -/
theorem document_entries {fuel : Nat} {ls : List Lexeme} {pairs : List (Node × Node)} {r : Reader}
    (reads : (entries fuel).run ⟨ls, [], []⟩ = some (pairs, r)) :
    (document (fuel + 2)).run ⟨.blockMapping :: ls, [], []⟩ = some (.mapping none pairs, r) := by
  simp [document, Reads.peek, isDocumentEdge, node_entries reads]

theorem length_flatMap_entryLexemes (pairs : List (String × String)) :
    (pairs.flatMap entryLexemes).length = 4 * pairs.length := by
  induction pairs with
  | nil => rfl
  | cons pair rest ih =>
    simp only [List.flatMap_cons, List.length_append, List.length_cons, ih, entryLexemes, List.length_nil]
    omega

/-- Lines of words are a mapping of each name to its word. -/
theorem read?_lines {entry : String × String} {entries : List (String × String)}
    (words : ∀ e ∈ entry :: entries, EntryWord e.1 ∧ EntryWord e.2) :
    Node.read? (String.ofList (lines (entry :: entries))) =
      some (some (.mapping none ((entry :: entries).map fun e => (wordNode e.1, wordNode e.2)))) := by
  rw [Node.read?, ofText?_lines words]
  generalize entry :: entries = pairs
  obtain ⟨fuel, steps⟩ : ∃ fuel, 4 * (.blockMapping :: (pairs.flatMap entryLexemes ++ [.blockEnd])).length + 4 =
      fuel + 3 + pairs.length + 2 := by
    refine ⟨15 * pairs.length + 7, ?_⟩
    rw [List.length_cons, List.length_append, length_flatMap_entryLexemes, List.length_singleton]
    omega
  have reads := document_entries (run_entries pairs fuel)
  rw [Option.bind_eq_bind, Option.bind_some, List.cons_append, Node.ofLexemes?, steps, reads]
  rfl

end LiveTable.Yaml
