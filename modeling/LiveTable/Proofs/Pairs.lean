import LiveTable.ColumnSpec
import LiveTable.Proofs.Conditions
import LiveTable.Proofs.InsertionOrder
import LiveTable.Proofs.Phrases
import Mathlib

/-!
# Names and declarations

Columns are given as pairs of a name and a declaration. The first colon of a pair parts them, and blanks around
the name are left out. A list of pairs is read as the insertion of its columns one after the other, up to the first
pair that is none; written columns are read as the same columns, in the same order.
-/

namespace LiveTable

namespace Text

/-- Characters with no blank at either end. -/
structure Bare (cs : List Char) : Prop where
  front : ∀ c ∈ cs.head?, isBlank c = false
  back : ∀ c ∈ cs.getLast?, isBlank c = false

/-- Characters that are others, bare, with only blanks around them. -/
structure Trims (cs trimmed : List Char) : Prop where
  bare : Bare trimmed
  around : ∃ front back, cs = front ++ trimmed ++ back ∧
    (∀ c ∈ front, isBlank c = true) ∧ ∀ c ∈ back, isBlank c = true

end Text

namespace ColumnSpec

/-- A pair gives a column: its name stands in front of the first colon, with or without blanks around it, and
behind stands a declaration. -/
def Gives (pair : String) (column : String × ColumnDef) : Prop :=
  ∃ front declaration, pair.toList = front ++ ':' :: String.toList declaration ∧ ':' ∉ front ∧
    Text.Trims front column.1.toList ∧ ColumnDef.Declared declaration column.2

/-- Why a pair gives no column, as it is told: it has no colon, or what stands behind the first one is no
declaration. -/
inductive Misses (pair : String) : String → Prop
  | colon (none : ':' ∉ pair.toList) : Misses pair ("expected name:type, got " ++ Text.quoted pair)
  | declaration {front : List Char} {declaration message : String}
    (parted : pair.toList = front ++ ':' :: declaration.toList) (first : ':' ∉ front)
    (refused : ColumnDef.Refused declaration message) : Misses pair message

/-- A column as a pair. -/
def pair (column : String × ColumnDef) : String := column.1 ++ ":" ++ column.2.sql

/-- What a list of pairs is told when its first pair that gives no column misses it for a reason. -/
def FirstMiss (pairs : List String) (message : String) : Prop :=
  ∃ before pair after, pairs = before ++ pair :: after ∧ (∀ p ∈ before, ∃ column, Gives p column) ∧
    Misses pair message

end ColumnSpec

/-! ## Parts of a text -/

namespace Text

variable {separator : Char} {cs before after trimmed : List Char}

/-- A text is parted at the first separator. -/
theorem splitOnce?_eq_some_iff : splitOnce? separator cs = some (before, after) ↔
    cs = before ++ separator :: after ∧ separator ∉ before := by
  induction cs generalizing before with
  | nil => simp [splitOnce?]
  | cons c rest ih =>
    by_cases here : c = separator
    · rw [splitOnce?, if_pos here]
      constructor
      · intro parts
        cases parts
        exact ⟨by rw [here, List.nil_append], List.not_mem_nil⟩
      · rintro ⟨same, first⟩
        cases before with
        | nil =>
          cases same
          rfl
        | cons b before =>
          cases same
          exact absurd (here ▸ List.mem_cons_self ..) first
    · rw [splitOnce?, if_neg here, Option.map_eq_some_iff]
      constructor
      · rintro ⟨⟨front, behind⟩, parts, same⟩
        cases same
        obtain ⟨rfl, first⟩ := ih.mp parts
        refine ⟨rfl, ?_⟩
        rw [List.mem_cons, not_or]
        exact ⟨Ne.symm here, first⟩
      · rintro ⟨same, first⟩
        cases before with
        | nil =>
          cases same
          exact absurd rfl here
        | cons b before =>
          cases same
          exact ⟨(before, after), ih.mpr ⟨rfl, fun m => first (List.mem_cons_of_mem _ m)⟩, rfl⟩

theorem splitOnce?_eq_none_iff : splitOnce? separator cs = none ↔ separator ∉ cs := by
  induction cs with
  | nil => simp [splitOnce?]
  | cons c rest ih =>
    by_cases here : c = separator
    · simp [splitOnce?, here]
    · simp [splitOnce?, here, ih, Ne.symm here]

/-- There is one way to part a text at its first separator. -/
theorem first_unique {before' after' : List Char} (first : separator ∉ before) (first' : separator ∉ before')
    (same : before ++ separator :: after = before' ++ separator :: after') : before = before' ∧ after = after' := by
  have one : splitOnce? separator (before ++ separator :: after) = some (before, after) :=
    splitOnce?_eq_some_iff.mpr ⟨rfl, first⟩
  have other : splitOnce? separator (before' ++ separator :: after') = some (before', after') :=
    splitOnce?_eq_some_iff.mpr ⟨rfl, first'⟩
  rw [same, other] at one
  cases one
  exact ⟨rfl, rfl⟩

theorem trimFront_blank (blank : ∀ c ∈ before, isBlank c = true) (cs : List Char) :
    trimFront (before ++ cs) = trimFront cs :=
  List.dropWhile_append_of_pos blank

theorem trimFront_of_head (some' : cs ≠ []) (front : ∀ c ∈ cs.head?, isBlank c = false) (rest : List Char) :
    trimFront (cs ++ rest) = cs ++ rest := by
  cases cs with
  | nil => exact absurd rfl some'
  | cons c cs => simp [trimFront, front c rfl]

theorem trims_trim (s : String) : Trims s.toList (trim s).toList := by
  have front := List.takeWhile_append_dropWhile (p := isBlank) (l := s.toList)
  have back := List.takeWhile_append_dropWhile (p := isBlank) (l := (trimFront s.toList).reverse)
  have kept : (trim s).toList ++ ((trimFront s.toList).reverse.takeWhile isBlank).reverse = trimFront s.toList := by
    rw [trim, String.toList_ofList, ← List.reverse_append]
    exact (congrArg List.reverse back).trans (List.reverse_reverse _)
  refine ⟨⟨?_, ?_⟩, ?_⟩
  · intro c here
    have first : c ∈ (trimFront s.toList).head? := by
      rw [← kept, List.head?_append]
      simp_all
    have solid := List.head?_dropWhile_not isBlank s.toList
    rw [trimFront] at first
    rw [Option.mem_def.mp first] at solid
    exact solid
  · intro c here
    have last : c ∈ (trimFront (trimFront s.toList).reverse).head? := by
      simpa [trim] using here
    have solid := List.head?_dropWhile_not isBlank (trimFront s.toList).reverse
    rw [trimFront] at last
    rw [Option.mem_def.mp last] at solid
    exact solid
  · refine ⟨s.toList.takeWhile isBlank, ((trimFront s.toList).reverse.takeWhile isBlank).reverse, ?_, ?_, ?_⟩
    · rw [List.append_assoc, kept, trimFront, front]
    · exact fun c member => List.mem_takeWhile_imp member
    · exact fun c member => List.mem_takeWhile_imp (List.mem_reverse.mp member)

/-- Trimming finds the bare part of a text, and there is only one. -/
theorem trims_iff {s t : String} : Trims s.toList t.toList ↔ trim s = t := by
  constructor
  · rintro ⟨bare, front, back, same, blankFront, blankBack⟩
    have blankBack' : ∀ c ∈ back.reverse, isBlank c = true := by simpa using blankBack
    rw [trim, same, List.append_assoc, trimFront_blank blankFront]
    by_cases none : t.toList = []
    · have all : trimFront back = [] := by simpa [trimFront] using blankBack
      rw [none, List.nil_append, all]
      have empty : t = "" := by simpa using none
      rw [empty]
      rfl
    · rw [trimFront_of_head none bare.front, List.reverse_append, trimFront_blank blankBack']
      have last : ∀ c ∈ t.toList.reverse.head?, isBlank c = false := by simpa using bare.back
      have same := trimFront_of_head (by simpa using none) last []
      rw [List.append_nil] at same
      rw [same, List.reverse_reverse, String.ofList_toList]
  · rintro rfl
    exact trims_trim s

end Text

namespace ColumnSpec

variable {column : String × ColumnDef} {pairs : List String} {spec : ColumnSpec}

/-! ## One pair -/

theorem parsePair_eq_ok_iff {pair : String} : parsePair pair = .ok column ↔ Gives pair column := by
  unfold parsePair
  constructor
  · intro read
    split at read
    · cases read
    · rename_i front declaration parts
      obtain ⟨parted, first⟩ := Text.splitOnce?_eq_some_iff.mp parts
      split at read
      · rename_i d declared
        cases read
        refine ⟨front, .ofList declaration, by simpa using parted, first, ?_, ColumnDef.parse_eq_ok_iff.mp declared⟩
        simpa using Text.trims_trim (.ofList front)
      · cases read
  · rintro ⟨front, declaration, parted, first, trims, declared⟩
    have trimmed : Text.trim (.ofList front) = column.1 := Text.trims_iff.mp (by simpa using trims)
    rw [Text.splitOnce?_eq_some_iff.mpr ⟨parted, first⟩]
    simp [ColumnDef.parse_eq_ok_iff.mpr declared, trimmed]

theorem parsePair_fails_iff {pair message : String} :
    (∃ e, parsePair pair = .error e ∧ e.message = message) ↔ Misses pair message := by
  unfold parsePair
  constructor
  · rintro ⟨e, read, rfl⟩
    split at read
    · rename_i none
      cases read
      exact .colon (Text.splitOnce?_eq_none_iff.mp none)
    · rename_i front declaration parts
      obtain ⟨parted, first⟩ := Text.splitOnce?_eq_some_iff.mp parts
      split at read
      · cases read
      · rename_i e' refused
        cases read
        have parted : pair.toList = front ++ ':' :: (String.ofList declaration).toList := by simpa using parted
        exact .declaration parted first (ColumnDef.parse_fails_iff.mp ⟨e', refused, rfl⟩)
  · rintro (none | ⟨parted, first, refused⟩)
    · rw [Text.splitOnce?_eq_none_iff.mpr none]
      exact ⟨_, rfl, rfl⟩
    · obtain ⟨e, failed, rfl⟩ := ColumnDef.parse_fails_iff.mpr refused
      rw [Text.splitOnce?_eq_some_iff.mpr ⟨parted, first⟩]
      exact ⟨.declaration e, by simp [failed], rfl⟩

/-- A written column is read as itself if its name is bare and without a colon, and some text declares it. -/
theorem gives_pair_iff : Gives (pair column) column ↔
    ':' ∉ column.1.toList ∧ Text.Bare column.1.toList ∧
      (column.2.autoincrement = true → column.2.primaryKey = true) := by
  have parts : (pair column).toList = column.1.toList ++ ':' :: column.2.sql.toList := by simp [pair]
  constructor
  · rintro ⟨front, declaration, parted, first, trims, declared⟩
    have colon : ':' ∉ column.1.toList := by
      obtain ⟨-, before, after, rfl, -⟩ := trims
      intro member
      exact first (by simp [member])
    obtain ⟨rfl, rest⟩ := Text.first_unique first colon (parted.symm.trans parts)
    obtain rfl := String.toList_inj.mp rest
    exact ⟨colon, trims.bare, ColumnDef.parse_sql_iff.mp (ColumnDef.parse_eq_ok_iff.mpr declared)⟩
  · rintro ⟨colon, bare, key⟩
    have declared := ColumnDef.parse_eq_ok_iff.mp (ColumnDef.parse_sql_iff.mpr key)
    exact ⟨_, _, parts, colon, ⟨bare, [], [], by simp, by simp, by simp⟩, declared⟩

/-! ## A list of pairs -/

theorem parsePairs_eq_ok_iff : parsePairs pairs = .ok spec ↔
    ∃ columns, List.Forall₂ Gives pairs columns ∧ spec = .ofList columns := by
  simp only [parsePairs, bind_eq_ok, mapM_eq_ok, parsePair_eq_ok_iff, Except.ok.injEq, eq_comm (b := spec)]

theorem parsePairs_fails_iff {message : String} :
    (∃ e, parsePairs pairs = .error e ∧ e.message = message) ↔ FirstMiss pairs message := by
  have refused : ∀ e, parsePairs pairs = .error e ↔ pairs.mapM parsePair = .error e :=
    fun e => bind_ok_eq_error
  simp only [refused, mapM_eq_error, FirstMiss, ← parsePair_fails_iff, parsePair_eq_ok_iff]
  constructor
  · rintro ⟨e, ⟨before, pair, after, same, given, missed⟩, told⟩
    exact ⟨before, pair, after, same, given, e, missed, told⟩
  · rintro ⟨before, pair, after, same, given, e, missed, told⟩
    exact ⟨e, ⟨before, pair, after, same, given, missed⟩, told⟩

theorem exists_parsePairs_iff :
    (∃ spec, parsePairs pairs = .ok spec) ↔ ∀ pair ∈ pairs, ∃ column, Gives pair column := by
  simp only [parsePairs_eq_ok_iff]
  constructor
  · rintro ⟨_, columns, gives, -⟩ pair member
    obtain ⟨column, -, given⟩ := exists_related gives member
    exact ⟨column, given⟩
  · intro given
    choose! columnOf gives using given
    refine ⟨_, pairs.map columnOf, ?_, rfl⟩
    rw [List.forall₂_map_right_iff, List.forall₂_same]
    exact gives

/-- A pair gives a column exactly if a declaration stands behind its first colon: any text can be a name. -/
theorem exists_gives_iff {pair : String} : (∃ column, Gives pair column) ↔
    ∃ front declaration, pair.toList = front ++ ':' :: String.toList declaration ∧ ':' ∉ front ∧
      ∃ d, ColumnDef.Declared declaration d := by
  constructor
  · rintro ⟨column, front, declaration, parted, first, -, declared⟩
    exact ⟨front, declaration, parted, first, _, declared⟩
  · rintro ⟨front, declaration, parted, first, d, declared⟩
    have trims : Text.Trims front (Text.trim (.ofList front)).toList := by
      simpa using Text.trims_trim (.ofList front)
    exact ⟨(_, d), front, declaration, parted, first, trims, declared⟩

/-- Written columns are read as the same columns if each pair gives its own. -/
theorem parsePairs_pair_iff :
    parsePairs (spec.entries.map pair) = .ok spec ↔ ∀ column ∈ spec.entries, Gives (pair column) column := by
  rw [parsePairs_eq_ok_iff]
  constructor
  · rintro ⟨columns, gives, made⟩
    have size : spec.entries.length = columns.length := by simpa using gives.length_eq
    have same : spec.entries = columns := by
      rw [made] at size ⊢
      exact Ordered.entries_of_size size
    rw [← same, List.forall₂_map_left_iff, List.forall₂_same] at gives
    exact gives
  · intro gives
    refine ⟨spec.entries, ?_, spec.ofList_entries.symm⟩
    rw [List.forall₂_map_left_iff, List.forall₂_same]
    exact gives

/-- Columns that are written as pairs are read as the same columns in the same order, exactly if their names are
bare and without a colon and no column but a key generates its values. A list of pairs is read exactly if every
pair has a colon with a declaration behind the first. It holds the columns of the pairs as if they were inserted
one after the other, by their names without the blanks around them. Otherwise it is told why the first pair that
gives no column does not. -/
theorem pairs_parsed :
    (∀ spec : ColumnSpec, parsePairs (spec.entries.map pair) = .ok spec ↔ ∀ column ∈ spec.entries,
      ':' ∉ column.1.toList ∧ Text.Bare column.1.toList ∧
        (column.2.autoincrement = true → column.2.primaryKey = true)) ∧
    (∀ pairs, (∃ spec, parsePairs pairs = .ok spec) ↔ ∀ pair ∈ pairs, ∃ front declaration,
      pair.toList = front ++ ':' :: String.toList declaration ∧ ':' ∉ front ∧
        ∃ d, ColumnDef.Declared declaration d) ∧
    (∀ pairs spec, parsePairs pairs = .ok spec ↔
      ∃ columns, List.Forall₂ Gives pairs columns ∧ Ordered.Holds spec columns) ∧
    ∀ pairs message, (∃ e, parsePairs pairs = .error e ∧ e.message = message) ↔ FirstMiss pairs message := by
  refine ⟨fun spec => ?_, fun pairs => ?_, fun pairs spec => ?_, fun pairs message => parsePairs_fails_iff⟩
  · simp only [parsePairs_pair_iff, gives_pair_iff]
  · simp only [exists_parsePairs_iff, exists_gives_iff]
  · simp only [parsePairs_eq_ok_iff, Ordered.holds_iff]

example : (parsePairs ["id:integer", " title : Text not NULL", "id:int primary key"]).map (·.entries) =
    .ok [("id", ⟨.integer, true, false, false⟩), ("title", ⟨.text, false, false, true⟩)] := by
  decide

end ColumnSpec

end LiveTable
