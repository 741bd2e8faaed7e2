import LiveTable.Json.Number
import LiveTable.Proofs.Rounding

/-!
# Numbers that can be read

A number that is written with a point or an exponent is read with two roundings. It is read as some finite
number if it stays three units below the place at which numbers overflow, however its digits are written.
-/

namespace LiveTable

/-- Numbers below are read whatever is lost by two roundings. -/
def Binary64.readable : ℚ := (2 ^ 53 - 3) * 2 ^ (971 : Int)

namespace Json

open Binary64

/-- What is readable does not overflow when two roundings add their share. -/
theorem readable_room : readable * (1 + 1 / 2 ^ 53) ^ 2 ≤ overflow := by
  have twice : (2 : ℚ) ^ (971 : Int) = 2 ^ (970 : Int) * 2 := zpow_add_one₀ two_ne_zero 970
  have mantissas : ((2 : ℚ) ^ 53 - 3) * 2 * (1 + 1 / 2 ^ 53) ^ 2 ≤ 2 ^ 54 - 1 := by norm_num
  rw [readable, overflow, twice]
  calc (2 ^ 53 - 3) * ((2 : ℚ) ^ (970 : Int) * 2) * (1 + 1 / 2 ^ 53) ^ 2
      = (2 ^ 53 - 3) * 2 * (1 + 1 / 2 ^ 53) ^ 2 * 2 ^ (970 : Int) := by ring
    _ ≤ (2 ^ 54 - 1) * 2 ^ (970 : Int) := mul_le_mul_of_nonneg_right mantissas (by positivity)

theorem cast_pow10 (n : Nat) : ((pow10 n : Nat) : ℚ) = 10 ^ n := by
  show ((10 ^ n : Nat) : ℚ) = 10 ^ n
  push_cast
  rfl

/-! ## Digits -/

theorem foldl_digits (n : Nat) (digits : List Char) :
    digits.foldl (fun n c => 10 * n + digitValue c) n = n * 10 ^ digits.length + digitsValue digits := by
  induction digits generalizing n with
  | nil => simp [digitsValue]
  | cons c rest ih =>
    rw [digitsValue, List.foldl_cons, List.foldl_cons, ih, ih (10 * 0 + digitValue c), List.length_cons]
    ring

theorem digitsValue_append (front back : List Char) :
    digitsValue (front ++ back) = digitsValue front * 10 ^ back.length + digitsValue back := by
  rw [digitsValue, List.foldl_append]
  exact foldl_digits _ back

theorem digitsValue_cons (c : Char) (rest : List Char) :
    digitsValue (c :: rest) = digitValue c * 10 ^ rest.length + digitsValue rest := by
  have single : digitsValue [c] = digitValue c := by simp [digitsValue]
  rw [← List.singleton_append, digitsValue_append, single]

/-- Digits are absorbed from the front, as long as the significand has room. -/
structure Absorbs (before : Nat) (digits : List Char) (after : Nat) (left : List Char) : Prop where
  split : ∃ taken, digits = taken ++ left ∧ after = before * 10 ^ taken.length + digitsValue taken
  small : after < pow2 64
  full : ∀ c rest, left = c :: rest → pow2 64 ≤ 10 * after + digitValue c

theorem absorbs_nil {n : Nat} (room : n < pow2 64) : Absorbs n [] n [] :=
  ⟨⟨[], rfl, by simp [digitsValue]⟩, room, nofun⟩

theorem absorbs_absorb {before : Nat} (room : before < pow2 64) (digits : List Char) :
    Absorbs before digits (absorb before digits).1 (absorb before digits).2 := by
  induction digits generalizing before with
  | nil => exact absorbs_nil room
  | cons c rest ih =>
    simp only [absorb]
    split
    · rename_i next
      obtain ⟨⟨taken, split, value⟩, small, full⟩ := ih next
      refine ⟨⟨c :: taken, by rw [List.cons_append, ← split], ?_⟩, small, full⟩
      rw [value, digitsValue_cons, List.length_cons]
      ring
    · rename_i full
      refine ⟨⟨[], rfl, by simp [digitsValue]⟩, room, ?_⟩
      rintro c' rest' same
      cases same
      exact not_lt.mp full

/-- What a significand and the digits that it left over stand for is not above the digits, not even if digits
behind the point are absorbed after some in front of it were left over. -/
theorem absorbed_le {whole fraction beyond dropped : List Char} {first joined : Nat}
    (wholes : Absorbs 0 whole first beyond) (fractions : Absorbs first fraction joined dropped) :
    joined * 10 ^ (beyond.length + dropped.length) ≤ digitsValue (whole ++ fraction) := by
  obtain ⟨⟨front, rfl, value⟩, -, full⟩ := wholes
  obtain ⟨⟨taken, rfl, value'⟩, small, -⟩ := fractions
  rw [Nat.zero_mul, Nat.zero_add] at value
  subst value
  have floor : digitsValue front * 10 ^ beyond.length ≤ digitsValue (front ++ beyond) := by
    rw [digitsValue_append]
    exact Nat.le_add_right _ _
  have floor' : joined * 10 ^ dropped.length ≤
      digitsValue front * 10 ^ (taken ++ dropped).length + digitsValue (taken ++ dropped) := by
    rw [value', digitsValue_append, List.length_append, pow_add]
    nlinarith [Nat.zero_le (digitsValue dropped)]
  rw [digitsValue_append (front ++ beyond)]
  cases beyond with
  | nil => simpa using floor'
  | cons c beyond =>
    by_cases none : taken = []
    · subst none
      simp only [List.length_nil, pow_zero, mul_one, digitsValue, List.foldl_nil, Nat.add_zero] at value'
      rw [value', pow_add, ← mul_assoc]
      exact Nat.le_add_right_of_le (Nat.mul_le_mul_right _ floor)
    · -- Digits behind the point had room where the next one in front of it had not, so they are less.
      have some' : 1 + dropped.length ≤ (taken ++ dropped).length := by
        rw [List.length_append]
        exact Nat.add_le_add_right (List.length_pos_of_ne_nil none) _
      have next : joined * 10 ^ beyond.length ≤ digitsValue (front ++ c :: beyond) := by
        rw [digitsValue_append, digitsValue_cons, List.length_cons, pow_succ]
        have room := small.le.trans (full c beyond rfl)
        nlinarith [Nat.mul_le_mul_right (10 ^ beyond.length) room]
      calc joined * 10 ^ ((c :: beyond).length + dropped.length)
          = joined * 10 ^ beyond.length * 10 ^ (1 + dropped.length) := by
            rw [List.length_cons]
            ring
        _ ≤ digitsValue (front ++ c :: beyond) * 10 ^ (taken ++ dropped).length :=
            Nat.mul_le_mul next (Nat.pow_le_pow_right (by decide) some')
        _ ≤ _ := Nat.le_add_right _ _

/-! ## Scaling -/

theorem ofInt_natural (n : Nat) : Binary64.ofInt n = ofRatio false n 1 := by
  have positive : decide ((n : Int) < 0) = false := by simp
  rw [Binary64.ofInt, positive, Int.natAbs_natCast]

theorem powerOfTen_eq {n : Nat} (small : n ≤ 308) : powerOfTen n = ofRatio false (pow10 n) 1 := by
  rw [powerOfTen, ofDecimal, if_neg (by decide), if_neg (by omega), if_neg (by omega), if_pos (by omega),
    Nat.one_mul, Int.toNat_natCast]

/-- A power of two with a factor, as a natural number. -/
theorem cast_mul_pow2 (factor n : Nat) : ((factor * pow2 n : Nat) : ℚ) = factor * 2 ^ (n : Int) := by
  rw [Nat.cast_mul, cast_pow2, zpow_natCast]

theorem overflow_eq : overflow = (((2 ^ 54 - 1) * pow2 970 : Nat) : ℚ) := by
  rw [cast_mul_pow2]
  norm_num [overflow]

theorem readable_eq : readable = (((2 ^ 53 - 3) * pow2 971 : Nat) : ℚ) := by
  rw [cast_mul_pow2]
  norm_num [readable]

theorem pow10_le {m n : Nat} (le : m ≤ n) : pow10 m ≤ pow10 n := Nat.pow_le_pow_right (by decide) le

theorem power_lt_overflow {n : Nat} (small : n ≤ 308) : ((pow10 n : Nat) : ℚ) < overflow := by
  have top : pow10 308 < (2 ^ 54 - 1) * pow2 970 := by decide +kernel
  rw [overflow_eq, Nat.cast_lt]
  exact (pow10_le small).trans_lt top

theorem readable_le_power {e : Int} (high : 309 ≤ e) : readable ≤ 10 ^ e := by
  have top : (2 ^ 53 - 3) * pow2 971 ≤ pow10 309 := by decide +kernel
  calc readable ≤ (pow10 309 : Nat) := by
        rw [readable_eq, Nat.cast_le]
        exact top
    _ = (10 : ℚ) ^ (309 : Int) := by rw [cast_pow10, ← zpow_natCast, Nat.cast_ofNat]
    _ ≤ 10 ^ e := zpow_le_zpow_right₀ (by norm_num) high

/-- A significand is scaled without overflow if what it stands for is readable. -/
theorem exists_scaled {s : Nat} {e : Int} (small : s < pow2 64) (bound : (s : ℚ) * 10 ^ e < readable) :
    ∃ x, scaled s e = some x := by
  by_cases zero : s = 0
  · exact ⟨_, by simp only [scaled]; rw [if_pos zero]⟩
  have one : (1 : ℚ) ≤ s := by exact_mod_cast Nat.one_le_iff_ne_zero.mpr zero
  have low : e ≤ 308 := by
    by_contra high
    have beyond : readable ≤ s * 10 ^ e :=
      (readable_le_power (by omega)).trans (le_mul_of_one_le_left (by positivity) one)
    exact absurd bound beyond.not_gt
  simp only [scaled]
  rw [if_neg zero, if_neg (by omega)]
  split
  · rename_i nonneg
    obtain ⟨n, rfl⟩ := Int.eq_ofNat_of_zero_le nonneg
    have small' : n ≤ 308 := by omega
    have room : ((2 ^ 64 : Nat) : ℚ) < overflow := by
      rw [overflow_eq, Nat.cast_lt]
      decide +kernel
    have below : (s : ℚ) < overflow := lt_trans (by exact_mod_cast small) room
    have factor := (magnitude_natural (Nat.pos_of_ne_zero zero) below).2
    have power := (magnitude_natural (pow10_pos n) (power_lt_overflow small')).2
    rw [cast_pow10] at power
    have product : (Binary64.ofInt s).magnitude * (powerOfTen n).magnitude < overflow := by
      rw [ofInt_natural, powerOfTen_eq small']
      calc (ofRatio false s 1).magnitude * (ofRatio false (pow10 n) 1).magnitude
          ≤ s * (1 + 1 / 2 ^ 53) * (10 ^ n * (1 + 1 / 2 ^ 53)) :=
            mul_le_mul factor power (by unfold magnitude; positivity) (by positivity)
        _ = s * 10 ^ n * (1 + 1 / 2 ^ 53) ^ 2 := by ring
        _ < readable * (1 + 1 / 2 ^ 53) ^ 2 := by
            rw [zpow_natCast] at bound
            exact mul_lt_mul_of_pos_right bound (by positivity)
        _ ≤ overflow := readable_room
    rw [Int.toNat_natCast, if_pos (isFinite_mul product)]
    exact ⟨_, rfl⟩
  · split_ifs <;> exact ⟨_, rfl⟩

/-! ## Numbers -/

namespace NumberText

/-- The exponent of a number, with its sign. -/
def power (t : NumberText) : Int :=
  match t.exponent with
  | none => 0
  | some (down, digits) => if down then -(digitsValue digits : Int) else digitsValue digits

/-- The distance from zero of a number as it is written. -/
def magnitude (t : NumberText) : ℚ :=
  digitsValue (t.whole ++ t.fraction.getD []) * 10 ^ (t.power - (t.fraction.getD []).length)

/-- The significand that the digits of a number are read as, and the power of ten that it counts. -/
def significand (t : NumberText) : Nat × Int :=
  match t.fraction with
  | none => ((absorb 0 t.whole).1, (absorb 0 t.whole).2.length)
  | some fraction => ((absorb (absorb 0 t.whole).1 fraction).1,
      (absorb 0 t.whole).2.length - (fraction.length - (absorb (absorb 0 t.whole).1 fraction).2.length : Nat))

/-- The power of ten that the significand counts behind the exponent, which is cut off at a limit. -/
def raised (t : NumberText) : Int :=
  match t.exponent with
  | none => t.significand.2
  | some (down, digits) => max (-(exponentLimit : Int) - 1) (min exponentLimit
      (if down then t.significand.2 - digitsValue digits else t.significand.2 + digitsValue digits))

/-- An exponent that raises the number is at most the limit. -/
def Counted (t : NumberText) : Prop :=
  ∀ digits, t.exponent = some (false, digits) → digitsValue digits ≤ exponentLimit

/-- An exponent below the limit leaves nothing of a number. -/
theorem real?_below {t : NumberText} {digits : List Char} (down : t.exponent = some (true, digits))
    (beyond : exponentLimit < digitsValue digits) : ∃ x, t.real? = some x := by
  obtain ⟨negative, whole, fraction, exponent⟩ := t
  subst down
  simp only [real?]
  rw [if_pos beyond, if_neg (by simp)]
  exact ⟨_, rfl⟩

theorem real?_eq {t : NumberText}
    (counted : ∀ down digits, t.exponent = some (down, digits) → digitsValue digits ≤ exponentLimit) :
    t.real? = (scaled t.significand.1 t.raised).map fun x => if t.negative then x.neg else x := by
  obtain ⟨negative, whole, fraction, exponent⟩ := t
  cases exponent with
  | none => cases fraction <;> exact Option.map_eq_bind.symm
  | some written =>
    have limit : ¬ exponentLimit < digitsValue written.2 := (counted written.1 written.2 rfl).not_gt
    simp only [real?]
    rw [if_neg limit]
    cases fraction <;> exact Option.map_eq_bind.symm

theorem raised_le (t : NumberText) : t.raised ≤ t.significand.2 + t.power ∨ t.raised < 0 := by
  unfold raised power
  split
  · omega
  · split <;> omega

/-- The significand is not above the number. -/
theorem significand_le (t : NumberText) : t.significand.1 < pow2 64 ∧
    (t.significand.1 : ℚ) * 10 ^ t.significand.2 ≤
      digitsValue (t.whole ++ t.fraction.getD []) * 10 ^ (-(t.fraction.getD []).length : Int) := by
  have whole := absorbs_absorb (pow2_pos 64) t.whole
  obtain ⟨negative, digits, fraction, exponent⟩ := t
  dsimp only at whole ⊢
  cases fraction with
  | none =>
    have le := absorbed_le whole (absorbs_nil whole.small)
    refine ⟨whole.small, ?_⟩
    simp only [significand, List.length_nil, Nat.add_zero, Option.getD_none, Nat.cast_zero, neg_zero, zpow_zero,
      mul_one, zpow_natCast] at le ⊢
    exact_mod_cast le
  | some fraction =>
    have joined := absorbs_absorb whole.small fraction
    have le := absorbed_le whole joined
    have shorter : (absorb (absorb 0 digits).1 fraction).2.length ≤ fraction.length := by
      obtain ⟨taken, split, -⟩ := joined.split
      have sizes := congrArg List.length split
      rw [List.length_append] at sizes
      omega
    refine ⟨joined.small, ?_⟩
    simp only [significand, Option.getD_some] at le ⊢
    generalize (absorb 0 digits).2.length = beyond at *
    generalize (absorb (absorb 0 digits).1 fraction).2.length = dropped at *
    generalize (absorb (absorb 0 digits).1 fraction).1 = s at *
    have shift : (beyond : Int) - (fraction.length - dropped : Nat) =
        ((beyond + dropped : Nat) : Int) + -(fraction.length : Int) := by omega
    rw [shift, zpow_add₀ (by norm_num), zpow_natCast, ← mul_assoc]
    refine mul_le_mul_of_nonneg_right ?_ (by positivity)
    exact_mod_cast le

/-- A number is read if what it stands for is readable and its exponent can be counted. -/
theorem exists_real {t : NumberText} (bound : t.magnitude < readable) (counted : t.Counted) :
    ∃ x, t.real? = some x := by
  by_cases sunk : ∃ digits, t.exponent = some (true, digits) ∧ exponentLimit < digitsValue digits
  · obtain ⟨digits, down, beyond⟩ := sunk
    exact real?_below down beyond
  have counted : ∀ down digits, t.exponent = some (down, digits) → digitsValue digits ≤ exponentLimit := by
    intro down digits written
    cases down with
    | false => exact counted digits written
    | true => exact not_lt.mp fun beyond => sunk ⟨digits, written, beyond⟩
  obtain ⟨small, le⟩ := t.significand_le
  have below : (t.significand.1 : ℚ) * 10 ^ t.raised < readable := by
    rcases t.raised_le with low | negative
    · refine lt_of_le_of_lt ?_ bound
      calc (t.significand.1 : ℚ) * 10 ^ t.raised
          ≤ t.significand.1 * 10 ^ (t.significand.2 + t.power) :=
            mul_le_mul_of_nonneg_left (zpow_le_zpow_right₀ (by norm_num) low) (by positivity)
        _ = t.significand.1 * 10 ^ t.significand.2 * 10 ^ t.power := by
            rw [zpow_add₀ (by norm_num), mul_assoc]
        _ ≤ digitsValue (t.whole ++ t.fraction.getD []) * 10 ^ (-(t.fraction.getD []).length : Int) *
              10 ^ t.power := mul_le_mul_of_nonneg_right le (by positivity)
        _ = t.magnitude := by
            rw [magnitude, sub_eq_neg_add, zpow_add₀ (by norm_num), mul_assoc]
    · have small : (t.significand.1 : ℚ) < (pow2 64 : Nat) := by exact_mod_cast small
      have room : ((pow2 64 : Nat) : ℚ) < readable := by
        rw [readable_eq, Nat.cast_lt]
        decide +kernel
      calc (t.significand.1 : ℚ) * 10 ^ t.raised
          ≤ t.significand.1 * 1 :=
            mul_le_mul_of_nonneg_left (zpow_le_one_of_nonpos₀ (by norm_num) negative.le) (by positivity)
        _ < readable := by linarith
  obtain ⟨x, scales⟩ := exists_scaled small below
  exact ⟨_, by rw [real?_eq counted, scales, Option.map_some]⟩

end NumberText

end Json

end LiveTable
