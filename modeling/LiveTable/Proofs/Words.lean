import LiveTable.Proofs.Discipline
import LiveTable.Proofs.Lexemes

/-!
# What statements are made of

Values never become a part of a statement. Its text has letters, digits, underscores, blanks and a few
signs, and each of its words is one of a fixed vocabulary, or a plain identifier that the caller gave,
or made of two of them. Requests that differ in values only send the same text.
-/

namespace LiveTable

/-- A character of a statement. -/
def isStatementChar (c : Char) : Bool :=
  isNameChar c || [' ', ',', '(', ')', '?', '*', '=', '!', '<', '>'].contains c

/-- The words in characters: the longest runs of letters, digits and underscores. -/
def runs (chars : List Char) : List String :=
  ((chars.splitOnP fun c => !isNameChar c).filter fun run => !run.isEmpty).map String.ofList

/-- The text of a word. -/
def Statement.Lexeme.word? : Statement.Lexeme → Option String
  | .word text => some text
  | .sign _ => none

/-- A word that comes from names of the caller: one of them, if it is a plain identifier, the reserved
name, or the name of the index on two of them. -/
inductive Supplied (names : List String) : String → Prop
  | name {word : String} (given : word ∈ names) (identifier : isIdentifier word = true) :
    Supplied names word
  | added : Supplied names addedColumn
  | index {table column : String} (given : table ∈ names) (identifier : isIdentifier table = true)
    (given' : column ∈ names) (identifier' : isIdentifier column = true) :
    Supplied names (Statement.indexName table column)

/-- A text of fixed words and signs, and of names that come from those of the caller. -/
structure Clean (names : List String) (text : String) : Prop where
  chars : ∀ c ∈ text.toList, isStatementChar c = true
  words : ∀ word ∈ runs text.toList, word ∈ Statement.vocabulary ∨ Supplied names word

/-! ## Words of texts -/

namespace Statement

variable {c : Char} {chars : List Char} {state : Cutting} {lexemes : List Lexeme}

/-- The characters of the word that is being cut. -/
def Cutting.pending : Cutting → List Char
  | .word seen => seen.reverse
  | _ => []

/-- The characters of the word that is being cut are letters, digits and underscores. -/
def Cutting.Sound : Cutting → Prop
  | .word seen => seen ≠ [] ∧ seen.all isNameChar = true
  | _ => True

theorem runs_word {word : List Char} (some' : word ≠ []) (named : word.all isNameChar = true) :
    runs word = [String.ofList word] := by
  have whole : word.splitOnP (fun c => !isNameChar c) = [word] :=
    List.splitOnP_eq_singleton fun c member => by simp [List.all_eq_true.mp named c member]
  simp [runs, whole, some']

/-- What is no letter, digit or underscore parts the words before it from those behind it. -/
theorem runs_append (other : isNameChar c = false) (before after : List Char) :
    runs (before ++ c :: after) = runs before ++ runs after := by
  have parted : (before ++ c :: after).splitOnP (fun c => !isNameChar c) =
      before.splitOnP (fun c => !isNameChar c) ++ after.splitOnP fun c => !isNameChar c :=
    List.splitOnP_append_cons before after (by simp [other])
  rw [runs, parted, List.filter_append, List.map_append]
  rfl

theorem runs_pending (sound : state.Sound) :
    runs state.pending = state.complete.filterMap Lexeme.word? := by
  cases state with
  | between => rfl
  | comparison seen => rfl
  | word seen =>
    have named : seen.reverse.all isNameChar = true := by rw [List.all_reverse]; exact sound.2
    exact runs_word (List.reverse_ne_nil_iff.mpr sound.1) named

/-- What the next character of a text does to the words that it is cut into. -/
inductive Takes (state : Cutting) (c : Char) (rest : List Char) (lexemes : List Lexeme) : Prop
  | more (named : isNameChar c = true) {seen : List Char} (word : state = .word seen)
    (cuts : cut (.word (c :: seen)) rest = some lexemes)
  | first (named : isNameChar c = true) (between : state.pending = []) {next : List Lexeme}
    (cuts : cut (.word [c]) rest = some next)
    (words : lexemes.filterMap Lexeme.word? = next.filterMap Lexeme.word?)
  | other (unnamed : isNameChar c = false) (allowed : isStatementChar c = true) (state' : Cutting)
    (sound : state'.Sound) (between : state'.pending = []) {next : List Lexeme}
    (cuts : cut state' rest = some next)
    (words : lexemes.filterMap Lexeme.word? =
      state.complete.filterMap Lexeme.word? ++ next.filterMap Lexeme.word?)

theorem takes {rest : List Char} (cuts : cut state (c :: rest) = some lexemes) :
    Takes state c rest lexemes := by
  simp only [cut] at cuts
  split at cuts
  · rename_i named
    cases state with
    | word seen => exact .more named rfl cuts
    | between =>
      obtain ⟨next, later, rfl⟩ := Option.map_eq_some_iff.mp cuts
      exact .first named rfl later rfl
    | comparison seen =>
      obtain ⟨next, later, rfl⟩ := Option.map_eq_some_iff.mp cuts
      exact .first named rfl later rfl
  · rename_i unnamed
    rw [Bool.not_eq_true] at unnamed
    split at cuts
    · rename_i compares
      have allowed : isStatementChar c = true := by
        simp only [isComparisonChar, Bool.or_eq_true, decide_eq_true_eq] at compares
        rcases compares with ((rfl | rfl) | rfl) | rfl <;> decide
      split at cuts
      · exact .other unnamed allowed (.comparison _) trivial rfl cuts rfl
      · obtain ⟨next, later, rfl⟩ := Option.map_eq_some_iff.mp cuts
        exact .other unnamed allowed (.comparison _) trivial rfl later
          (List.filterMap_append ..)
    · split at cuts
      · rename_i signs
        have allowed : isStatementChar c = true := by
          simp only [isSignChar, Bool.or_eq_true, decide_eq_true_eq] at signs
          rcases signs with (((rfl | rfl) | rfl) | rfl) | rfl <;> decide
        obtain ⟨next, later, rfl⟩ := Option.map_eq_some_iff.mp cuts
        exact .other unnamed allowed .between trivial rfl later (List.filterMap_append ..)
      · split at cuts
        · rename_i blank
          subst blank
          obtain ⟨next, later, rfl⟩ := Option.map_eq_some_iff.mp cuts
          exact .other unnamed (by decide) .between trivial rfl later
            (List.filterMap_append ..)
        · cases cuts

/-- The words of a text are those that it is cut into. -/
theorem runs_of_cut (sound : state.Sound) (cuts : cut state chars = some lexemes) :
    runs (state.pending ++ chars) = lexemes.filterMap Lexeme.word? := by
  -- A word that has not ended yet goes on in the characters, so what was seen of it stands before them.
  induction chars generalizing state lexemes with
  | nil =>
    cases cuts
    rw [List.append_nil, runs_pending sound]
  | cons c rest ih =>
    cases takes cuts with
    | @more named seen word later =>
      subst word
      have longer : Cutting.Sound (.word (c :: seen)) :=
        ⟨List.cons_ne_nil _ _, by rw [List.all_cons, named, sound.2]; rfl⟩
      have whole := ih longer later
      simpa [Cutting.pending] using whole
    | first named between cuts words =>
      have single : Cutting.Sound (.word [c]) := ⟨List.cons_ne_nil _ _, by simp [named]⟩
      rw [between, words]
      exact ih single cuts
    | other unnamed allowed state' sound' between cuts words =>
      have whole := ih sound' cuts
      rw [between] at whole
      rw [runs_append unnamed, runs_pending sound, words, ← whole]
      rfl

/-- A text that can be cut has characters of statements only. -/
theorem chars_of_cut (cuts : cut state chars = some lexemes) :
    ∀ c ∈ chars, isStatementChar c = true := by
  induction chars generalizing state lexemes with
  | nil => exact List.forall_mem_nil _
  | cons c rest ih =>
    have named (named : isNameChar c = true) : isStatementChar c = true := by
      simp [isStatementChar, named]
    cases takes cuts with
    | more name word cuts => exact List.forall_mem_cons.mpr ⟨named name, ih cuts⟩
    | first name between cuts words => exact List.forall_mem_cons.mpr ⟨named name, ih cuts⟩
    | other unnamed allowed state' sound between cuts words =>
      exact List.forall_mem_cons.mpr ⟨allowed, ih cuts⟩

/-! ## Clean statements -/

theorem isWord_supplied {names : List String} {word : String} (supplied : Supplied names word) :
    isWord word = true := by
  cases supplied with
  | name given identifier => exact isWord_of_isIdentifier identifier
  | added => decide
  | @index table column given identifier given' identifier' =>
    have first := isWord_of_isIdentifier identifier
    have second := isWord_of_isIdentifier identifier'
    simp only [isWord, Bool.and_eq_true] at first second
    simp [isWord, indexName, String.toList_append, List.all_append, first.2, second.2, isNameChar]

/-- A statement is clean if its names come from those of the caller. -/
theorem clean {names : List String} {s : Statement} (given : ∀ text, s ≠ .verbatim text)
    (named : ∀ name ∈ s.names, name = "*" ∨ Supplied names name) : Clean names s.text := by
  have cuts := cut_text given fun name member => (named name member).symm.imp_left isWord_supplied
  refine ⟨chars_of_cut cuts, fun word member => ?_⟩
  have words : runs s.text.toList = s.lexemes.filterMap Lexeme.word? :=
    @runs_of_cut _ .between _ trivial cuts
  rw [words] at member
  obtain ⟨lexeme, present, same⟩ := List.mem_filterMap.mp member
  cases lexeme with
  | sign text => cases same
  | word text =>
    cases same
    rcases mem_lexemes given present with known | ⟨name, notStar⟩
    · exact .inl known
    · exact .inr ((named word name).resolve_left notStar)

end Statement

end LiveTable
