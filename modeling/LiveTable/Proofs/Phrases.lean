import LiveTable.Proofs.Requests
import Mathlib

/-!
# Declarations in words

A declaration is cut into words at its blanks, and the case of its letters does not matter. It describes a
column exactly if its first word is one for a type and the others make up phrases, in any order and however
often. Otherwise the first word at which neither can be read is told. What a statement says of a column is a
declaration of the same column.
-/

namespace LiveTable

namespace Text

/-- Characters are words with blanks around them: no word is empty or has a blank in it, and a blank parts it
from the next. -/
inductive Spaced : List Char → List (List Char) → Prop
  | done : Spaced [] []
  | blank {c : Char} {cs : List Char} {words : List (List Char)} (blank : isBlank c = true)
    (rest : Spaced cs words) : Spaced (c :: cs) words
  | word {word cs : List Char} {words : List (List Char)} (some : word ≠ [])
    (solid : ∀ c ∈ word, isBlank c = false) (parted : ∀ c ∈ cs.head?, isBlank c = true)
    (rest : Spaced cs words) : Spaced (word ++ cs) (word :: words)

/-- The words of a text. -/
def Worded (s : String) (words : List String) : Prop := Spaced s.toList (words.map String.toList)

end Text

/-- A constraint as a declaration writes it. -/
inductive Phrase
  | primaryKey
  | notNull
  | autoincrement
  deriving DecidableEq

/-- The words of a phrase, in small letters. -/
def Phrase.words : Phrase → List String
  | .primaryKey => ["primary", "key"]
  | .notNull => ["not", "null"]
  | .autoincrement => ["autoincrement"]

/-- The words for types, in small letters. -/
def typeWords : List (String × ColumnType) :=
  [("text", .text), ("integer", .integer), ("int", .integer), ("real", .real), ("float", .real),
    ("double", .real), ("blob", .blob)]

/-- The column is what a word for a type and phrases say of it. -/
structure ColumnDef.Fits (d : ColumnDef) (word : String) (phrases : List Phrase) : Prop where
  type : (word, d.type) ∈ typeWords
  primaryKey : d.primaryKey = true ↔ .primaryKey ∈ phrases ∨ .autoincrement ∈ phrases
  autoincrement : d.autoincrement = true ↔ .autoincrement ∈ phrases
  notNull : d.notNull = true ↔ .notNull ∈ phrases

/-- Why words in small letters are no declaration, as it is told: there is none, the first is not for a type, or
behind some phrases stands a word that begins none. -/
inductive Refusal : List String → String → Prop
  | empty : Refusal [] "empty column declaration"
  | type {word : String} {rest : List String} (unknown : ∀ type, (word, type) ∉ typeWords) :
    Refusal (word :: rest) ("unknown column type: " ++ word)
  | phrase {word : String} {type : ColumnType} {phrases : List Phrase} {stuck : String} {rest : List String}
    (known : (word, type) ∈ typeWords) (stops : ∀ phrase : Phrase, ¬ phrase.words <+: stuck :: rest) :
    Refusal (word :: (phrases.flatMap Phrase.words ++ stuck :: rest)) ("unknown column constraint: " ++ stuck)

/-- A text declares a column: in letters of any case, its words are one for a type and phrases for constraints. -/
def ColumnDef.Declared (s : String) (d : ColumnDef) : Prop :=
  ∃ words, Text.Worded s words ∧ ∃ (word : String) (phrases : List Phrase),
    words.map Text.lower = word :: phrases.flatMap Phrase.words ∧ d.Fits word phrases

/-- A text declares no column, and this is told. -/
def ColumnDef.Refused (s message : String) : Prop :=
  ∃ words, Text.Worded s words ∧ Refusal (words.map Text.lower) message

/-! ## Words of a text -/

namespace Text

variable {cs word : List Char} {words : List (List Char)} {s : String}

theorem wordsFrom_word (solid : ∀ c ∈ word, isBlank c = false) (parted : ∀ c ∈ cs.head?, isBlank c = true)
    {seen : List Char} (some' : seen.reverse ++ word ≠ []) :
    wordsFrom seen (word ++ cs) = (seen.reverse ++ word) :: wordsFrom [] cs := by
  induction word generalizing seen with
  | nil =>
    rw [List.append_nil] at some' ⊢
    have begun : seen ≠ [] := by simpa using some'
    cases cs with
    | nil => simp [wordsFrom, begun]
    | cons c rest =>
      have blank : isBlank c = true := parted c rfl
      simp [wordsFrom, blank, begun]
  | cons c word ih =>
    obtain ⟨first, others⟩ := List.forall_mem_cons.mp solid
    rw [List.cons_append, wordsFrom, if_neg (by simp [first]), ih others (by simp)]
    simp

theorem spaced_wordsFrom (cs : List Char) {seen : List Char} (solid : ∀ c ∈ seen, isBlank c = false) :
    Spaced (seen.reverse ++ cs) (wordsFrom seen cs) := by
  have solid' : ∀ c ∈ seen.reverse, isBlank c = false := by simpa using solid
  induction cs generalizing seen with
  | nil =>
    by_cases begun : seen = []
    · subst begun
      exact .done
    · have complete : wordsFrom seen [] = [seen.reverse] := by simp [wordsFrom, begun]
      rw [complete]
      exact .word (by simpa using begun) solid' (by simp) .done
  | cons c rest ih =>
    by_cases blank : isBlank c = true
    · have others : Spaced rest (wordsFrom [] rest) := ih (List.forall_mem_nil _) (List.forall_mem_nil _)
      by_cases begun : seen = []
      · subst begun
        have skips : wordsFrom [] (c :: rest) = wordsFrom [] rest := by simp [wordsFrom, blank]
        rw [skips]
        exact .blank blank others
      · have ends : wordsFrom seen (c :: rest) = seen.reverse :: wordsFrom [] rest := by
          simp [wordsFrom, blank, begun]
        rw [ends]
        exact .word (by simpa using begun) solid' (by simpa using blank) (.blank blank others)
    · have more : ∀ c' ∈ c :: seen, isBlank c' = false :=
        List.forall_mem_cons.mpr ⟨by simpa using blank, solid⟩
      have longer := ih more (fun c' member => more c' (List.mem_reverse.mp member))
      rw [wordsFrom, if_neg blank]
      simpa using longer

/-- A text has one row of words, and cutting finds it. -/
theorem spaced_iff : Spaced cs words ↔ wordsFrom [] cs = words := by
  constructor
  · intro spaced
    induction spaced with
    | done => rfl
    | blank blank _ ih => simpa [wordsFrom, blank] using ih
    | word some' solid parted _ ih =>
      rw [wordsFrom_word solid parted (by simpa using some'), ih]
      simp
  · rintro rfl
    exact spaced_wordsFrom cs (List.forall_mem_nil _)

theorem worded_iff {words : List String} : Worded s words ↔ Text.words s = words := by
  rw [Worded, spaced_iff, Text.words]
  constructor
  · intro same
    simp [same]
  · rintro rfl
    simp

theorem isBlank_of_isAlpha {c : Char} (letter : c.isAlpha = true) : isBlank c = false := by
  have range : 65 ≤ c.toNat ∧ c.toNat ≤ 122 := by
    simp only [Char.isAlpha, Char.isUpper, Char.isLower, Bool.or_eq_true, Bool.and_eq_true, decide_eq_true_eq,
      UInt32.le_iff_toNat_le, ge_iff_le] at letter
    change (65 ≤ c.toNat ∧ c.toNat ≤ 90) ∨ (97 ≤ c.toNat ∧ c.toNat ≤ 122) at letter
    omega
  simp only [isBlank, Bool.or_eq_false_iff, Bool.and_eq_false_iff, decide_eq_false_iff_not]
  omega

/-- Words joined by blanks are the words of the text. -/
theorem words_intercalate {words : List String}
    (solid : ∀ word ∈ words, word ≠ "" ∧ ∀ c ∈ word.toList, isBlank c = false) :
    Text.words (" ".intercalate words) = words := by
  rw [← worded_iff]
  induction words with
  | nil => exact .done
  | cons word rest ih =>
    obtain ⟨⟨some', own⟩, others⟩ := List.forall_mem_cons.mp solid
    have some' : word.toList ≠ [] := by simpa using some'
    cases rest with
    | nil =>
      have alone : (" ".intercalate [word]).toList = word.toList ++ [] := by simp
      rw [Worded, alone]
      exact .word some' own (by simp) .done
    | cons next rest =>
      have split : (" ".intercalate (word :: next :: rest)).toList =
          word.toList ++ ' ' :: (" ".intercalate (next :: rest)).toList := by
        rw [String.intercalate_cons_cons]
        simp
      rw [Worded, split]
      have blank : isBlank ' ' = true := by decide
      exact .word some' own (by simp [blank]) (.blank blank (ih others))

theorem lower_lower (s : String) : lower (lower s) = lower s := by
  simp [lower, Function.comp_def, Char.toLower_toLower_eq_toLower]

end Text

/-! ## Types -/

theorem ofLower?_eq_some_iff {word : String} {type : ColumnType} :
    ColumnType.ofLower? word = some type ↔ (word, type) ∈ typeWords := by
  unfold ColumnType.ofLower?
  split <;> simp_all [typeWords, eq_comm]

theorem ofLower?_eq_none_iff {word : String} :
    ColumnType.ofLower? word = none ↔ ∀ type, (word, type) ∉ typeWords := by
  simp only [← ofLower?_eq_some_iff, Option.eq_none_iff_forall_ne_some, ne_eq]

/-! ## Phrases -/

namespace Phrase

/-- The column with the constraint of a phrase. -/
def apply (d : ColumnDef) : Phrase → ColumnDef
  | .primaryKey => d.asPrimaryKey
  | .notNull => d.asNotNull
  | .autoincrement => d.asAutoincrement

end Phrase

namespace ColumnDef

variable {d d' : ColumnDef} {words : List String} {e : DeclarationError}

theorem constrain_phrases (d : ColumnDef) (phrases : List Phrase) (rest : List String) :
    d.constrain (phrases.flatMap Phrase.words ++ rest) = (phrases.foldl Phrase.apply d).constrain rest := by
  induction phrases generalizing d with
  | nil => rfl
  | cons phrase phrases ih =>
    rw [List.flatMap_cons, List.append_assoc, List.foldl_cons, ← ih]
    cases phrase <;> rfl

theorem constrain_stuck (d : ColumnDef) {stuck : String} {rest : List String}
    (stops : ∀ phrase : Phrase, ¬ phrase.words <+: stuck :: rest) :
    d.constrain (stuck :: rest) = .error (.unknownConstraint stuck) := by
  have key := stops .primaryKey
  have null := stops .notNull
  have auto := stops .autoincrement
  unfold constrain
  split <;> simp_all [Phrase.words]

/-- Words are read as phrases as far as that goes. -/
theorem exists_phrases (words : List String) : ∃ (phrases : List Phrase) (rest : List String),
    words = phrases.flatMap Phrase.words ++ rest ∧ ∀ phrase : Phrase, ¬ phrase.words <+: rest := by
  by_cases more : ∃ phrase : Phrase, phrase.words <+: words
  · obtain ⟨phrase, rest, rfl⟩ := more
    obtain ⟨phrases, last, rfl, stops⟩ := exists_phrases rest
    exact ⟨phrase :: phrases, last, by simp, stops⟩
  · exact ⟨[], words, rfl, not_exists.mp more⟩
termination_by words.length
decreasing_by
  subst_vars
  cases phrase <;> simp [Phrase.words]

theorem constrain_eq_ok_iff : d.constrain words = .ok d' ↔
    ∃ phrases : List Phrase, words = phrases.flatMap Phrase.words ∧ d' = phrases.foldl Phrase.apply d := by
  constructor
  · intro read
    obtain ⟨phrases, rest, rfl, stops⟩ := exists_phrases words
    rw [constrain_phrases] at read
    cases rest with
    | nil =>
      cases read
      exact ⟨phrases, by simp, rfl⟩
    | cons stuck rest =>
      rw [constrain_stuck _ stops] at read
      cases read
  · rintro ⟨phrases, rfl, rfl⟩
    have read := constrain_phrases d phrases []
    rwa [List.append_nil] at read

theorem constrain_eq_error_iff : d.constrain words = .error e ↔
    ∃ (phrases : List Phrase) (stuck : String) (rest : List String),
    words = phrases.flatMap Phrase.words ++ stuck :: rest ∧
      (∀ phrase : Phrase, ¬ phrase.words <+: stuck :: rest) ∧ e = .unknownConstraint stuck := by
  constructor
  · intro read
    obtain ⟨phrases, rest, rfl, stops⟩ := exists_phrases words
    rw [constrain_phrases] at read
    cases rest with
    | nil => cases read
    | cons stuck rest =>
      rw [constrain_stuck _ stops] at read
      cases read
      exact ⟨phrases, stuck, rest, rfl, stops, rfl⟩
  · rintro ⟨phrases, stuck, rest, rfl, stops, rfl⟩
    rw [constrain_phrases, constrain_stuck _ stops]

/-- A constraint is set by its phrases, and stays set. -/
theorem constraints_foldl (d : ColumnDef) (phrases : List Phrase) :
    (phrases.foldl Phrase.apply d).type = d.type ∧
    ((phrases.foldl Phrase.apply d).primaryKey = true ↔
      d.primaryKey = true ∨ .primaryKey ∈ phrases ∨ .autoincrement ∈ phrases) ∧
    ((phrases.foldl Phrase.apply d).autoincrement = true ↔ d.autoincrement = true ∨ .autoincrement ∈ phrases) ∧
    ((phrases.foldl Phrase.apply d).notNull = true ↔ d.notNull = true ∨ .notNull ∈ phrases) := by
  induction phrases generalizing d with
  | nil => simp
  | cons phrase phrases ih =>
    obtain ⟨type, primaryKey, autoincrement, notNull⟩ := ih (phrase.apply d)
    rw [List.foldl_cons, type, primaryKey, autoincrement, notNull]
    cases phrase <;> simp [Phrase.apply, asPrimaryKey, asNotNull, asAutoincrement]

theorem fits_iff {word : String} {phrases : List Phrase} : d.Fits word phrases ↔
    (word, d.type) ∈ typeWords ∧ d = phrases.foldl Phrase.apply (.plain d.type) := by
  obtain ⟨type, primaryKey, autoincrement, notNull⟩ := constraints_foldl (.plain d.type) phrases
  generalize phrases.foldl Phrase.apply (.plain d.type) = made at *
  simp only [plain, Bool.false_eq_true, false_or] at type primaryKey autoincrement notNull
  constructor
  · intro fits
    have key := Bool.eq_iff_iff.mpr (fits.primaryKey.trans primaryKey.symm)
    have auto := Bool.eq_iff_iff.mpr (fits.autoincrement.trans autoincrement.symm)
    have null := Bool.eq_iff_iff.mpr (fits.notNull.trans notNull.symm)
    refine ⟨fits.type, ?_⟩
    cases d
    cases made
    simp_all
  · rintro ⟨known, rfl⟩
    exact ⟨known, primaryKey, autoincrement, notNull⟩

/-! ## Declarations -/

/-- The first word of a lowered text is in small letters, so it is looked up as it is. -/
theorem lower_first {s word : String} {rest : List String}
    (lowered : (Text.words s).map Text.lower = word :: rest) : Text.lower word = word := by
  obtain ⟨w, -, rfl⟩ : ∃ w ∈ Text.words s, Text.lower w = word :=
    List.mem_map.mp (lowered ▸ List.mem_cons_self ..)
  exact Text.lower_lower w

theorem parse_known {s word : String} {rest : List String} {type : ColumnType}
    (lowered : (Text.words s).map Text.lower = word :: rest) (known : ColumnType.ofLower? word = some type) :
    parse s = (plain type).constrain rest := by
  have small : Text.lower word = word := lower_first lowered
  rw [parse, lowered]
  simp only [ColumnType.parse, small, known]
  rfl

theorem parse_unknown {s word : String} {rest : List String}
    (lowered : (Text.words s).map Text.lower = word :: rest) (unknown : ColumnType.ofLower? word = none) :
    parse s = .error (.unknownType word) := by
  have small : Text.lower word = word := lower_first lowered
  rw [parse, lowered]
  simp only [ColumnType.parse, small, unknown]
  rfl

theorem parse_eq_ok_iff {s : String} : parse s = .ok d ↔ Declared s d := by
  simp only [Declared, Text.worded_iff, exists_eq_left', fits_iff]
  cases lowered : (Text.words s).map Text.lower with
  | nil => simp [parse, lowered]
  | cons word rest =>
    cases found : ColumnType.ofLower? word with
    | none =>
      rw [parse_unknown lowered found]
      constructor
      · intro read
        cases read
      · rintro ⟨_, phrases, same, known, -⟩
        cases same
        exact absurd known (ofLower?_eq_none_iff.mp found _)
    | some type =>
      have known := ofLower?_eq_some_iff.mp found
      rw [parse_known lowered found, constrain_eq_ok_iff]
      constructor
      · rintro ⟨phrases, rfl, rfl⟩
        have same : (phrases.foldl Phrase.apply (plain type)).type = type := (constraints_foldl _ _).1
        rw [same]
        exact ⟨word, phrases, rfl, known, rfl⟩
      · rintro ⟨_, phrases, same, own, made⟩
        cases same
        obtain rfl : d.type = type := by simpa [found] using (ofLower?_eq_some_iff.mpr own).symm
        exact ⟨phrases, rfl, made⟩

theorem parse_fails_iff {s message : String} :
    (∃ e, parse s = .error e ∧ e.message = message) ↔ Refused s message := by
  simp only [Refused, Text.worded_iff, exists_eq_left']
  cases lowered : (Text.words s).map Text.lower with
  | nil =>
    have empty : parse s = .error .empty := by rw [parse, lowered]
    rw [empty]
    constructor
    · rintro ⟨_, refused, rfl⟩
      cases refused
      exact .empty
    · rintro ⟨⟩
      exact ⟨_, rfl, rfl⟩
  | cons word rest =>
    cases found : ColumnType.ofLower? word with
    | none =>
      have unknown := ofLower?_eq_none_iff.mp found
      rw [parse_unknown lowered found]
      constructor
      · rintro ⟨_, refused, rfl⟩
        cases refused
        exact .type unknown
      · rintro (_ | _ | ⟨known, _⟩)
        · exact ⟨_, rfl, rfl⟩
        · exact absurd known (unknown _)
    | some type =>
      have known := ofLower?_eq_some_iff.mp found
      simp only [parse_known lowered found, constrain_eq_error_iff]
      constructor
      · rintro ⟨_, ⟨phrases, stuck, rest, rfl, stops, rfl⟩, rfl⟩
        exact .phrase known stops
      · rintro (_ | unknown | ⟨-, stops⟩)
        · exact absurd known (unknown _)
        · exact ⟨_, ⟨_, _, _, rfl, stops, rfl⟩, rfl⟩

/-- The phrases for the constraints of a column. -/
def phrases (d : ColumnDef) : List Phrase :=
  (if d.primaryKey then [.primaryKey] else []) ++ (if d.autoincrement then [.autoincrement] else []) ++
    (if d.notNull then [.notNull] else [])

theorem sqlWords_lower (d : ColumnDef) : d.sqlWords.map Text.lower =
    Text.lower d.type.sql :: d.phrases.flatMap Phrase.words := by
  obtain ⟨type, primaryKey, autoincrement, notNull⟩ := d
  have key : ["PRIMARY", "KEY"].map Text.lower = Phrase.primaryKey.words := by decide
  have auto : ["AUTOINCREMENT"].map Text.lower = Phrase.autoincrement.words := by decide
  have null : ["NOT", "NULL"].map Text.lower = Phrase.notNull.words := by decide
  cases primaryKey <;> cases autoincrement <;> cases notNull <;>
    simp [sqlWords, phrases, ← key, ← auto, ← null]

theorem words_sql (d : ColumnDef) : Text.words d.sql = d.sqlWords := by
  have letters : ∀ word ∈ d.sqlWords, word ≠ "" ∧ word.toList.all Char.isAlpha = true :=
    d.forall_sqlWords (by decide)
  apply Text.words_intercalate
  intro word member
  obtain ⟨some', spelled⟩ := letters word member
  exact ⟨some', fun c here => Text.isBlank_of_isAlpha (List.all_eq_true.mp spelled c here)⟩

/-- The text of a column in a statement declares the same column, unless it generates numbers and is no key. -/
theorem parse_sql_iff : parse d.sql = .ok d ↔ (d.autoincrement = true → d.primaryKey = true) := by
  rw [parse_eq_ok_iff]
  constructor
  · rintro ⟨words, -, word, phrases, -, fits⟩ auto
    exact fits.primaryKey.mpr (.inr (fits.autoincrement.mp auto))
  · intro key
    refine ⟨d.sqlWords, Text.worded_iff.mpr d.words_sql, _, _, d.sqlWords_lower, ?_⟩
    refine ⟨by cases d.type <;> decide, ?_, ?_, ?_⟩ <;> obtain ⟨type, primaryKey, autoincrement, notNull⟩ := d
    · cases primaryKey <;> cases autoincrement <;> cases notNull <;> simp_all [phrases]
    · cases primaryKey <;> cases autoincrement <;> cases notNull <;> simp [phrases]
    · cases primaryKey <;> cases autoincrement <;> cases notNull <;> simp [phrases]

/-- Exactly the declarations are read that are a word for a type and phrases for constraints, in any order and
however often, in letters of any case and with any blanks between the words. The column has the type of that
word, and the constraints of the phrases; the values of a key are generated only if a phrase says so. Everything
else is refused, with the word at which no more can be read. The text of a column in a statement declares the same
column, if any text does. -/
theorem declaration_parsed :
    (∀ s d, parse s = .ok d ↔ Declared s d) ∧
    (∀ s message, (∃ e, parse s = .error e ∧ e.message = message) ↔ Refused s message) ∧
    ∀ d, parse d.sql = .ok d ↔ ∃ s, parse s = .ok d := by
  refine ⟨fun s d => parse_eq_ok_iff, fun s message => parse_fails_iff, fun d => ?_⟩
  constructor
  · intro same
    exact ⟨_, same⟩
  · rintro ⟨s, read⟩
    obtain ⟨words, -, word, phrases, -, fits⟩ := parse_eq_ok_iff.mp read
    exact parse_sql_iff.mpr fun auto => fits.primaryKey.mpr (.inr (fits.autoincrement.mp auto))

end ColumnDef

end LiveTable
