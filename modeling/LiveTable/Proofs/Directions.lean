import LiveTable.Proofs.Decoding
import LiveTable.Proofs.Rounding
import LiveTable.Proofs.Validation
import Mathlib

/-!
# Directions of sort orders

A sort order is given by columns with codes, or as a document. The two ways agree on every code of sixty-four bits,
though the one compares integers and the other rounded numbers: no integer but one is rounded to one. The text of
an order is read back as its keys.
-/

namespace LiveTable

namespace Binary64

/-- The value of a finite number. -/
def value (x : Binary64) : ℚ := if x.isNegative then -x.magnitude else x.magnitude

/-- A finite number that lies as near to a value as any other. -/
structure Nearest (q : ℚ) (x : Binary64) : Prop where
  finite : x.isFinite = true
  least : ∀ y : Binary64, y.isFinite = true → |x.value - q| ≤ |y.value - q|

end Binary64

/-- The value of a JSON number. -/
def Json.number? : Json → Option ℚ
  | .integer n => some n
  | .real x => if x.isFinite then some x.value else none
  | _ => none

/-- A JSON number whose nearest floating-point number is one. -/
def Json.IsOne (code : Json) : Prop :=
  ∃ q, code.number? = some q ∧ ∃ x : Binary64, x.Nearest q ∧ x.value = 1

namespace SortOrder

/-- The order of columns with codes, one key after the other. -/
def ofCodes (codes : List (String × Int64)) : SortOrder :=
  codes.foldl (fun s (column, code) => s.add column (.ofCode code)) .empty

/-- Columns with codes as a document. -/
def document (codes : List (String × Int64)) : Json :=
  .object (codes.map fun (column, code) => (column, .integer code.toInt))

/-- The keys that the text of an order is read as. -/
def read? (text : String) : Option (List SortKey) :=
  (Statement.cut .between text.toList).bind Statement.readOrder

end SortOrder

/-! ## The number one -/

namespace Binary64

variable {x : Binary64}

theorem unsigned_one : (ofInt 1).unsigned = 1023 * pow2 52 := by decide

/-- The exponent of one stands in the middle of all exponents. -/
theorem exponentField_one (word : x.unsigned = (ofInt 1).unsigned) : x.exponentField = 1023 := by
  rw [exponentField, word, unsigned_one, Nat.mul_div_cancel _ (pow2_pos 52)]

theorem value_eq (positive : x.isNegative = false) : x.value = x.mantissa * 2 ^ x.scale := by
  rw [value, positive]
  rfl

theorem value_zero : (ofInt 0).value = 0 := by
  have none : (ofInt 0).mantissa = 0 := by decide
  rw [value_eq (by decide), none]
  norm_num

theorem value_one : (ofInt 1).value = 1 := by
  have counted : (ofInt 1).mantissa = 2 ^ 52 ∧ (ofInt 1).scale = -52 := by decide
  rw [value_eq (by decide), counted.1, counted.2]
  norm_num

theorem value_two : (ofInt 2).value = 2 := by
  have counted : (ofInt 2).mantissa = 2 ^ 52 ∧ (ofInt 2).scale = -51 := by decide
  rw [value_eq (by decide), counted.1, counted.2]
  norm_num

/-- What is equal to one is positive and has its word. -/
theorem numEq_one_iff_word :
    x.numEq (.ofInt 1) = true ↔ x.isNegative = false ∧ x.unsigned = (ofInt 1).unsigned := by
  have proper : (ofInt 1).isNaN = false := by decide
  have own : (ofInt 1).rank = (ofInt 1).unsigned := by decide
  have some' : 0 < (ofInt 1).unsigned := by decide
  rw [numEq, proper, own]
  cases negative : x.isNegative with
  | true =>
    have below : x.rank ≤ 0 := by simp [rank, negative]
    have different : x.rank ≠ (ofInt 1).unsigned := by omega
    simp [different]
  | false =>
    have rank : x.rank = x.unsigned := by simp [rank, negative]
    rw [rank]
    constructor
    · intro same
      simp only [Bool.and_eq_true, beq_iff_eq] at same
      exact ⟨rfl, by exact_mod_cast same.2⟩
    · rintro ⟨-, word⟩
      have number : x.isNaN = false := by simp [isNaN, exponentField_one word]
      simp [number, word]

/-- The finite numbers with the value one are equal to one. -/
theorem numEq_one_iff : x.numEq (.ofInt 1) = true ↔ x.isFinite = true ∧ x.value = 1 := by
  have one : (ofInt 1).magnitude = 1 := value_one
  rw [numEq_one_iff_word]
  constructor
  · rintro ⟨positive, word⟩
    have same : x.magnitude = 1 := (magnitude_inj.mpr word).trans one
    exact ⟨by simp [isFinite, exponentField_one word], by simpa [value, positive] using same⟩
  · rintro ⟨-, same⟩
    cases negative : x.isNegative with
    | true =>
      rw [value, negative, if_pos rfl] at same
      have nonneg := x.magnitude_nonneg
      linarith
    | false =>
      rw [value, negative, if_neg (by simp)] at same
      exact ⟨rfl, magnitude_inj.mp (same.trans one.symm)⟩

/-- From two on, a natural number is rounded to a greater word than that of one. -/
theorem unsigned_ofRatio_gt (negative : Bool) {n : Nat} (two : 2 ≤ n) :
    (ofInt 1).unsigned < (ofRatio negative n 1).unsigned := by
  have mid : pow2 52 = 4503599627370496 := rfl
  obtain ⟨g, lower, upper, word⟩ := ofRatio_eq_word negative (by omega : 0 < n) Nat.one_pos
  have above : (2 : ℚ) ≤ n := by exact_mod_cast two
  have least : -51 ≤ g := by
    by_contra small
    have unit : (2 : ℚ) ^ g ≤ 2 ^ (-52 : Int) := zpow_le_zpow_right₀ one_le_two (by omega)
    have positive : (0 : ℚ) < 2 ^ g := by positivity
    rw [Nat.cast_one, div_one, div_lt_iff₀ positive] at upper
    have little : (2 : ℚ) ^ 53 * 2 ^ g ≤ 2 := by
      calc (2 : ℚ) ^ 53 * 2 ^ g ≤ 2 ^ 53 * 2 ^ (-52 : Int) := by gcongr
        _ = 2 := by norm_num
    linarith
  obtain ⟨positive, ratio⟩ := unscale_ratio n Nat.one_pos g
  have filled : pow2 52 ≤ roundDiv (unscale n 1 g).1 (unscale n 1 g).2 := by
    refine le_roundDiv positive ?_
    rw [ratio, cast_pow2]
    exact lower
  rw [word, unsigned_one, max_eq_left (by omega : -1074 ≤ g),
    unsigned_withSign _ (lt_of_le_of_lt (min_le_right _ _) (by decide))]
  rw [mid] at filled ⊢
  omega

/-- No integer but one is rounded to one. -/
theorem ofInt_numEq_one_iff {n : Int} : (ofInt n).numEq (.ofInt 1) = true ↔ n = 1 := by
  by_cases large : 2 ≤ n.natAbs
  · have above : (ofInt 1).unsigned < (ofInt n).unsigned := unsigned_ofRatio_gt _ large
    rw [numEq_one_iff_word]
    omega
  · obtain rfl | rfl | rfl : n = -1 ∨ n = 0 ∨ n = 1 := by omega
    · decide
    · decide
    · decide

/-- One is the nearest number to no integer but itself. -/
theorem Nearest.eq_one {n : Int} (nearest : Nearest n x) (one : x.value = 1) : n = 1 := by
  have zero := nearest.least (ofInt 0) (by decide)
  have two := nearest.least (ofInt 2) (by decide)
  rw [one, value_zero] at zero
  rw [one, value_two] at two
  rcases lt_trichotomy n 1 with less | equal | more
  · have below : (n : ℚ) ≤ 0 := by exact_mod_cast Int.lt_add_one_iff.mp less
    rw [abs_of_nonneg (by linarith), abs_of_nonneg (by linarith)] at zero
    linarith
  · exact equal
  · have above : (2 : ℚ) ≤ n := by exact_mod_cast more
    rw [abs_of_nonpos (by linarith), abs_of_nonpos (by linarith)] at two
    linarith

/-- One is the nearest number to itself. -/
theorem nearest_one : Nearest 1 (ofInt 1) where
  finite := by decide
  least := by
    intro y _
    rw [value_one, sub_self, abs_zero]
    exact abs_nonneg _

end Binary64

/-! ## Codes -/

/-- A code is one if one is its value. -/
theorem Json.isOne_iff {code : Json} : code.IsOne ↔ code.number? = some 1 := by
  constructor
  · rintro ⟨q, number, x, nearest, one⟩
    rw [number]
    cases code with
    | integer n =>
      cases number
      rw [nearest.eq_one one]
      rfl
    | real y =>
      rw [number?, Option.ite_none_right_eq_some] at number
      obtain ⟨finite, same⟩ := number
      cases same
      have least := nearest.least y finite
      rw [one, sub_self, abs_zero, abs_nonpos_iff, sub_eq_zero] at least
      rw [least]
    | _ => cases number
  · intro number
    exact ⟨1, number, .ofInt 1, Binary64.nearest_one, Binary64.value_one⟩

theorem Direction.ofJson_eq_ascending_iff {code : Json} : Direction.ofJson code = .ascending ↔ code.IsOne := by
  rw [Json.isOne_iff]
  have ascending (equal : Bool) :
      (if equal then Direction.ascending else .descending) = .ascending ↔ equal = true := by
    cases equal <;> simp
  cases code with
  | integer n =>
    show (if (Binary64.ofInt n).numEq (.ofInt 1) then Direction.ascending else .descending) = .ascending ↔ _
    rw [ascending, Binary64.ofInt_numEq_one_iff, Json.number?, Option.some_inj, Int.cast_eq_one]
  | real x =>
    show (if x.numEq (.ofInt 1) then Direction.ascending else .descending) = .ascending ↔ _
    rw [ascending, Binary64.numEq_one_iff, Json.number?, Option.ite_none_right_eq_some, Option.some_inj]
  | _ => simp [Direction.ofJson, Json.asReal?, Json.number?]

-- The number behind one is descending already.
example : Direction.ofJson (.real ⟨0x3ff0000000000000⟩) = .ascending ∧
    Direction.ofJson (.real ⟨0x3ff0000000000001⟩) = .descending := by
  decide

/-- The code of a direction may be compared as an integer or as a rounded number. -/
theorem Direction.ofJson_integer (code : Int64) : Direction.ofJson (.integer code.toInt) = .ofCode code := by
  have one : code.toInt = 1 ↔ code = 1 := by
    rw [← Int64.toInt_inj]
    rfl
  have ascending : Direction.ofJson (.integer code.toInt) = .ascending ↔ code = 1 := by
    rw [ofJson_eq_ascending_iff, Json.isOne_iff, Json.number?, Option.some_inj, Int.cast_eq_one, one]
  by_cases same : code = 1
  · rw [ofCode, if_pos same]
    exact ascending.mpr same
  · rw [ofCode, if_neg same]
    cases read : Direction.ofJson (.integer code.toInt) with
    | ascending => exact absurd (ascending.mp read) same
    | descending => rfl

/-! ## Orders -/

namespace SortOrder

variable {s : SortOrder}

theorem keys_foldl_add (s : SortOrder) (codes : List (String × Int64)) :
    (codes.foldl (fun s (column, code) => s.add column (.ofCode code)) s).keys =
      s.keys ++ codes.map fun (column, code) => ⟨column, .ofCode code⟩ := by
  induction codes generalizing s with
  | nil => simp
  | cons code rest ih =>
    rw [List.foldl_cons, ih]
    simp [add]

/-- Columns with codes are the same order as a document. -/
theorem ofJson_document (codes : List (String × Int64)) : ofJson (document codes) = .ok (ofCodes codes) := by
  have keys : (ofCodes codes).keys = codes.map fun (column, code) => ⟨column, .ofCode code⟩ :=
    keys_foldl_add empty codes
  simp only [document, ofJson, List.map_map, Function.comp_def, Direction.ofJson_integer, ← keys]

theorem key_iff {member : String × Json} {key : SortKey} :
    (key.column = member.1 ∧ (key.direction = .ascending ↔ member.2.IsOne)) ↔
      SortKey.mk member.1 (.ofJson member.2) = key := by
  obtain ⟨column, direction⟩ := key
  have directions : (direction = .ascending ↔ member.2.IsOne) ↔ Direction.ofJson member.2 = direction := by
    rw [← Direction.ofJson_eq_ascending_iff]
    cases direction <;> cases Direction.ofJson member.2 <;> simp
  rw [directions, SortKey.mk.injEq, eq_comm (a := column)]

theorem ofJson_eq_ok_iff {json : Json} : ofJson json = .ok s ↔
    json = .null ∧ s = .empty ∨ ∃ members, json = .object members ∧
      List.Forall₂ (fun m k => k.column = m.1 ∧ (k.direction = .ascending ↔ m.2.IsOne)) members s.keys := by
  obtain ⟨keys⟩ := s
  simp only [key_iff]
  cases json with
  | null => simp [ofJson, eq_comm]
  | object members =>
    have pairs : List.Forall₂ (fun m k => SortKey.mk m.1 (.ofJson m.2) = k) members keys ↔
        members.map (fun m => ⟨m.1, .ofJson m.2⟩) = keys := by
      rw [← List.forall₂_eq_eq_eq, List.forall₂_map_left_iff]
    simp [ofJson, pairs]
  | _ => simp [ofJson]

/-! ## Texts of orders -/

theorem decides_orderBy (s : SortOrder) : Decides (Check.ofNames (s.keys.map (·.column))) s.orderBy := by
  have decides := (decides_checkNames (s.keys.map (·.column))).give fun _ => if s.isEmpty then "" else
    "ORDER BY " ++ ", ".intercalate (s.keys.map fun k => k.column ++ " " ++ k.direction.sql)
  rw [orderBy]
  by_cases none : s.isEmpty = true
  · simpa only [none, if_true] using decides
  · simpa only [none, Bool.false_eq_true, if_false] using decides

/-- In a statement, a blank stands in front of the text of an order. -/
theorem join_orderPieces {keys : List SortKey} (some' : keys ≠ []) :
    String.join ((Statement.orderPieces keys).map Statement.Piece.text) =
      " " ++ ("ORDER BY " ++ ", ".intercalate (keys.map fun k => k.column ++ " " ++ k.direction.sql)) := by
  have row (k : SortKey) : String.join ([Statement.Piece.name .key k.column, .word (" " ++ k.direction.sql)].map
      Statement.Piece.text) = k.column ++ " " ++ k.direction.sql := by
    simp [Statement.Piece.text, String.append_assoc]
  rw [Statement.orderPieces, if_neg (by simpa using some'), List.map_cons, String.join_cons, join_separated,
    List.map_map, ← String.append_assoc]
  exact congrArg (" ORDER BY " ++ ", ".intercalate ·) (List.map_congr_left fun k _ => row k)

theorem cut_orderPieces {keys : List SortKey} (named : ∀ k ∈ keys, isIdentifier k.column = true) :
    Statement.cut .between (String.join ((Statement.orderPieces keys).map Statement.Piece.text)).toList =
      some ((Statement.orderPieces keys).flatMap Statement.Piece.lexemes) := by
  rw [String.toList_join, List.flatMap_map]
  refine Statement.cut_pieces (Statement.joined_order keys) fun p member => ?_
  cases p with
  | word text => exact (Statement.cut_fixed (Statement.known_order keys _ member)).1
  | name place name =>
    have column : name ∈ keys.map (·.column) := by
      rw [← Statement.names_order]
      exact List.mem_filterMap.mpr ⟨_, member, rfl⟩
    obtain ⟨k, present, rfl⟩ := List.mem_map.mp column
    exact Statement.cut_name (.inl (Statement.isWord_of_isIdentifier (named k present))) place

/-- The text of an order is read as its keys. -/
theorem read_orderBy {text : String} (written : s.orderBy = .ok text) : read? text = some s.keys := by
  obtain ⟨checked, shown⟩ := check_bind_eq_ok.mp written
  have named : ∀ k ∈ s.keys, isIdentifier k.column = true := fun k member =>
    checkNames_eq_ok.mp checked k.column (List.mem_map_of_mem member)
  by_cases none : s.keys = []
  · rw [if_pos (by simp [isEmpty, none])] at shown
    cases shown
    rw [none]
    rfl
  · rw [if_neg (by simpa [isEmpty] using none)] at shown
    cases shown
    have cuts := cut_orderPieces named
    rw [join_orderPieces none, String.toList_append] at cuts
    rw [read?, ← Statement.cut_blank]
    refine (congrArg (Option.bind · Statement.readOrder) cuts).trans ?_
    exact Statement.readOrder_keys fun k member =>
      Statement.word_ne_star (Statement.isWord_of_isIdentifier (named k member))

/-- Columns with codes and documents give the same orders. The order of columns with codes, one key after the
other, is the order of the document with the same members, so both have the same text or are refused alike. A
document is an order exactly if it is null or an object, and has a key for each member then; the key is ascending
exactly if one is the nearest floating-point number to a number there. An order is written exactly if its columns are
plain identifiers, and its keys are read back from its text, so no other order has this text. -/
theorem directions_agree :
    (∀ codes : List (String × Int64), ofJson (document codes) = .ok (ofCodes codes) ∧
      (do (← ofJson (document codes)).orderBy) = (ofCodes codes).orderBy) ∧
    (∀ json s, ofJson json = .ok s ↔ json = .null ∧ s = .empty ∨ ∃ members, json = .object members ∧
      List.Forall₂ (fun m k => k.column = m.1 ∧ (k.direction = .ascending ↔ m.2.IsOne)) members s.keys) ∧
    ∀ s : SortOrder, (∃ text, s.orderBy = .ok text ∧ read? text = some s.keys) ∨
      ∃ check, FirstFailure (Check.ofNames (s.keys.map (·.column))) check ∧ s.orderBy = .error check.error := by
  refine ⟨fun codes => ⟨ofJson_document codes, ?_⟩, fun json s => ofJson_eq_ok_iff, fun s => ?_⟩
  · rw [ofJson_document]
    rfl
  · rcases passes_or_fails (Check.ofNames (s.keys.map (·.column))) with passes | ⟨check, fails⟩
    · obtain ⟨text, written⟩ := (decides_orderBy s).passes passes
      exact .inl ⟨text, written, read_orderBy written⟩
    · exact .inr ⟨check, fails, (decides_orderBy s).fails check fails⟩

end SortOrder

end LiveTable
