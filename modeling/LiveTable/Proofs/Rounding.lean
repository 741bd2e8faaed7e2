import LiveTable.Binary64
import Mathlib.Algebra.Order.Field.Power
import Mathlib.Data.Nat.Log
import Mathlib.Data.Rat.Cast.Order
import Mathlib.Tactic.FieldSimp
import Mathlib.Tactic.Linarith
import Mathlib.Tactic.Positivity
import Mathlib.Tactic.Ring

/-!
# How far rounding goes

Words grow with the distance from zero. A ratio that is rounded to a floating-point number stays finite if it is
below the middle between the greatest finite number and the power of two behind it. From one on, rounding adds at
most one part in `2 ^ 53`.
-/

namespace LiveTable.Binary64

/-- The distance of a finite number from zero. -/
def magnitude (x : Binary64) : ℚ := x.mantissa * 2 ^ x.scale

/-- The least ratio that is rounded to infinity. -/
def overflow : ℚ := (2 ^ 54 - 1) * 2 ^ (970 : Int)

theorem cast_pow2 (n : Nat) : ((pow2 n : Nat) : ℚ) = 2 ^ n := by
  show ((2 ^ n : Nat) : ℚ) = 2 ^ n
  push_cast
  rfl

theorem cast_pow2_toNat {q : Int} (nonneg : 0 ≤ q) : ((pow2 q.toNat : Nat) : ℚ) = 2 ^ q := by
  rw [cast_pow2, ← zpow_natCast, Int.toNat_of_nonneg nonneg]

/-! ## Words -/

theorem unsigned_lt (x : Binary64) : x.unsigned < pow2 63 := Nat.mod_lt _ (pow2_pos _)

theorem unsigned_withSign (negative : Bool) {word : Nat} (small : word < pow2 63) :
    (withSign negative word).unsigned = word := by
  have half : pow2 63 = 9223372036854775808 := rfl
  rw [half] at small
  simp only [withSign, unsigned, half, Nat.toUInt64_eq, UInt64.toNat_ofNat']
  cases negative <;> simp <;> omega

/-- The sign changes nothing of the distance from zero. -/
theorem mantissa_congr {x y : Binary64} (same : x.unsigned = y.unsigned) : x.mantissa = y.mantissa ∧ x.scale = y.scale := by
  simp only [mantissa, scale, exponentField, fraction, same]
  exact ⟨rfl, rfl⟩

/-- A mantissa that is put on top of an exponent counts the power of two of that exponent, even if it carries. -/
theorem magnitude_word {x : Binary64} {exponent r : Nat} (word : x.unsigned = exponent * pow2 52 + r)
    (carries : r ≤ 2 * pow2 52) (normal : pow2 52 ≤ r ∨ exponent = 0) :
    x.magnitude = r * 2 ^ ((exponent : Int) - 1074) := by
  have mid : pow2 52 = 4503599627370496 := rfl
  rw [mid] at word carries normal
  rcases Nat.lt_trichotomy r 4503599627370496 with less | exact' | more
  · obtain rfl : exponent = 0 := normal.resolve_left (by omega)
    have field : x.exponentField = 0 := by rw [exponentField, word, mid]; omega
    have fraction' : x.fraction = r := by rw [fraction, word, mid]; omega
    simp [magnitude, mantissa, scale, field, fraction']
  · subst exact'
    have field : x.exponentField = exponent + 1 := by rw [exponentField, word, mid]; omega
    have fraction' : x.fraction = 0 := by rw [fraction, word, mid]; omega
    simp only [magnitude, mantissa, scale, field, fraction', mid, Nat.add_one_ne_zero, if_false, Nat.add_zero]
    congr 2
    push_cast
    ring
  · by_cases whole : r = 9007199254740992
    · -- The mantissa carries, and the next exponent counts twice as much.
      subst whole
      have field : x.exponentField = exponent + 2 := by rw [exponentField, word, mid]; omega
      have fraction' : x.fraction = 0 := by rw [fraction, word, mid]; omega
      simp only [magnitude, mantissa, scale, field, fraction', mid, Nat.add_zero]
      have twice : (2 : ℚ) ^ (((exponent + 2 : Nat) : Int) - 1075) = 2 * 2 ^ ((exponent : Int) - 1074) := by
        rw [← zpow_one_add₀ two_ne_zero]
        congr 1
        push_cast
        ring
      rw [if_neg (by omega), if_neg (by omega), twice]
      push_cast
      ring
    · have field : x.exponentField = exponent + 1 := by rw [exponentField, word, mid]; omega
      have fraction' : x.fraction = r - 4503599627370496 := by rw [fraction, word, mid]; omega
      have mantissa' : x.mantissa = r := by
        rw [mantissa, field, fraction', mid, if_neg (by omega)]
        omega
      simp only [magnitude, mantissa', scale, field, Nat.add_one_ne_zero, if_false]
      congr 2
      push_cast
      ring

variable {x y : Binary64}

theorem magnitude_nonneg (x : Binary64) : 0 ≤ x.magnitude := by
  unfold magnitude
  positivity

/-- The next word stands for a greater distance from zero. -/
theorem magnitude_succ (next : y.unsigned = x.unsigned + 1) : x.magnitude < y.magnitude := by
  have mid : pow2 52 = 4503599627370496 := rfl
  -- Both words have a mantissa on top of one exponent; that of the next one may carry.
  obtain ⟨exponent, r, word, normal, room⟩ : ∃ exponent r, x.unsigned = exponent * pow2 52 + r ∧
      (pow2 52 ≤ r ∨ exponent = 0) ∧ r + 1 ≤ 2 * pow2 52 := by
    refine ⟨x.unsigned / pow2 52 - 1, x.unsigned - (x.unsigned / pow2 52 - 1) * pow2 52, ?_, ?_, ?_⟩ <;>
      rw [mid] <;> omega
  have here : x.magnitude = r * 2 ^ ((exponent : Int) - 1074) := magnitude_word word (by omega) normal
  have there : y.magnitude = (r + 1 : Nat) * 2 ^ ((exponent : Int) - 1074) :=
    magnitude_word (by omega) room (by omega)
  rw [here, there]
  gcongr
  omega

/-- Words grow with the distance from zero. -/
theorem magnitude_lt (less : x.unsigned < y.unsigned) : x.magnitude < y.magnitude := by
  obtain ⟨k, far⟩ := Nat.exists_eq_add_of_lt less
  have bound := y.unsigned_lt
  clear less
  induction k generalizing y with
  | zero => exact magnitude_succ far
  | succ k ih =>
    have between : (withSign false (x.unsigned + k + 1)).unsigned = x.unsigned + k + 1 :=
      unsigned_withSign false (by omega)
    have nearer : x.magnitude < (withSign false (x.unsigned + k + 1)).magnitude := ih between (by omega)
    have last : (withSign false (x.unsigned + k + 1)).magnitude < y.magnitude :=
      magnitude_succ (by omega)
    exact nearer.trans last

theorem magnitude_inj : x.magnitude = y.magnitude ↔ x.unsigned = y.unsigned := by
  constructor
  · intro same
    rcases lt_trichotomy x.unsigned y.unsigned with less | equal | more
    · exact absurd same (magnitude_lt less).ne
    · exact equal
    · exact absurd same (magnitude_lt more).ne'
  · intro same
    obtain ⟨mantissa, scale⟩ := mantissa_congr same
    rw [magnitude, magnitude, mantissa, scale]

/-! ## Quotients -/

theorem roundDiv_cases (num den : Nat) : roundDiv num den = num / den ∨
    roundDiv num den = num / den + 1 ∧ den ≤ 2 * (num % den) := by
  simp only [roundDiv]
  split_ifs
  · exact .inl rfl
  · exact .inr ⟨rfl, by omega⟩
  · rcases Nat.mod_two_eq_zero_or_one (num / den) with even | odd
    · exact .inl (by omega)
    · exact .inr ⟨by omega, by omega⟩

/-- Rounding a quotient adds at most a half. -/
theorem roundDiv_le {num den : Nat} (positive : 0 < den) :
    (roundDiv num den : ℚ) ≤ num / den + 1 / 2 := by
  have den' : (0 : ℚ) < den := Nat.cast_pos.mpr positive
  have parts : (den : ℚ) * (num / den : Nat) + (num % den : Nat) = num := by
    exact_mod_cast Nat.div_add_mod num den
  have rest : (0 : ℚ) ≤ (num % den : Nat) := Nat.cast_nonneg _
  rw [div_add_div _ _ den'.ne' two_ne_zero, le_div_iff₀ (by positivity)]
  rcases roundDiv_cases num den with down | ⟨up, half⟩
  · rw [down]
    linarith
  · have half : (den : ℚ) ≤ 2 * (num % den : Nat) := by exact_mod_cast half
    rw [up]
    push_cast
    linarith

/-- A natural number below a quotient stays below it when it is rounded, and one above it stays above it. -/
theorem le_roundDiv {num den n : Nat} (positive : 0 < den) (le : (n : ℚ) ≤ num / den) : n ≤ roundDiv num den := by
  have floor : n ≤ num / den := by
    rw [Nat.le_div_iff_mul_le positive]
    rw [le_div_iff₀ (Nat.cast_pos.mpr positive)] at le
    exact_mod_cast le
  rcases roundDiv_cases num den with same | ⟨same, -⟩ <;> omega

theorem roundDiv_le_of_lt {num den n : Nat} (positive : 0 < den) (lt : (num / den : ℚ) < n) :
    roundDiv num den ≤ n := by
  have floor : num / den < n := by
    rw [Nat.div_lt_iff_lt_mul positive]
    rw [div_lt_iff₀ (Nat.cast_pos.mpr positive)] at lt
    exact_mod_cast lt
  rcases roundDiv_cases num den with same | ⟨same, -⟩ <;> omega

/-- A ratio with a power of two taken out. -/
theorem unscale_ratio (num : Nat) {den : Nat} (positive : 0 < den) (q : Int) :
    0 < (unscale num den q).2 ∧
      ((unscale num den q).1 : ℚ) / (unscale num den q).2 = num / den / 2 ^ q := by
  have den' : (0 : ℚ) < den := Nat.cast_pos.mpr positive
  unfold unscale
  split
  · rename_i nonneg
    refine ⟨Nat.mul_pos positive (pow2_pos _), ?_⟩
    push_cast
    rw [cast_pow2_toNat nonneg, div_div]
  · rename_i negative
    refine ⟨positive, ?_⟩
    push_cast
    rw [cast_pow2_toNat (by omega), zpow_neg, mul_div_right_comm, div_eq_mul_inv _ ((2 : ℚ) ^ q)]

/-- The binary size of a ratio is known up to a factor of two. -/
theorem ratio_bounds {num den : Nat} (num' : 0 < num) (den' : 0 < den) :
    (2 : ℚ) ^ ((num.log2 : Int) - den.log2 - 1) < num / den ∧
      (num / den : ℚ) < 2 ^ ((num.log2 : Int) - den.log2 + 1) := by
  have lower : ((2 ^ num.log2 : Nat) : ℚ) ≤ num := by exact_mod_cast Nat.log2_self_le num'.ne'
  have upper : (num : ℚ) < ((2 ^ (num.log2 + 1) : Nat) : ℚ) := by exact_mod_cast Nat.lt_log2_self
  have lower' : ((2 ^ den.log2 : Nat) : ℚ) ≤ den := by exact_mod_cast Nat.log2_self_le den'.ne'
  have upper' : (den : ℚ) < ((2 ^ (den.log2 + 1) : Nat) : ℚ) := by exact_mod_cast Nat.lt_log2_self
  push_cast at lower upper lower' upper'
  have positive : (0 : ℚ) < den := Nat.cast_pos.mpr den'
  constructor
  · rw [lt_div_iff₀ positive]
    calc (2 : ℚ) ^ ((num.log2 : Int) - den.log2 - 1) * den
        < 2 ^ ((num.log2 : Int) - den.log2 - 1) * 2 ^ (den.log2 + 1) := by gcongr
      _ = 2 ^ num.log2 := by
        rw [← zpow_natCast, ← zpow_natCast, ← zpow_add₀ two_ne_zero]
        congr 1
        push_cast
        ring
      _ ≤ num := lower
  · rw [div_lt_iff₀ positive]
    calc (num : ℚ) < 2 ^ (num.log2 + 1) := upper
      _ = 2 ^ ((num.log2 : Int) - den.log2 + 1) * 2 ^ den.log2 := by
        rw [← zpow_natCast, ← zpow_natCast, ← zpow_add₀ two_ne_zero]
        congr 1
        push_cast
        ring
      _ ≤ 2 ^ ((num.log2 : Int) - den.log2 + 1) * den := by gcongr

/-! ## Rounding a ratio -/

/-- A ratio is rounded to a mantissa that counts a power of two. -/
structure Rounds (negative : Bool) (ratio : ℚ) (q : Int) (r : Nat) (x : Binary64) : Prop where
  least : -1074 ≤ q
  normal : pow2 52 ≤ r ∧ 2 ^ 52 ≤ ratio / 2 ^ q ∨ q = -1074
  carries : r ≤ 2 * pow2 52
  near : (r : ℚ) ≤ ratio / 2 ^ q + 1 / 2
  word : x = withSign negative (min ((q + 1074).toNat * pow2 52 + r) (2047 * pow2 52))

/-- The power of two is chosen such that the mantissa gets fifty-three bits. -/
theorem guess_bounds {num den : Nat} (num' : 0 < num) (den' : 0 < den) {guess : Int}
    (guessed : guess = (num.log2 : Int) - den.log2 - 52) :
    let q := if (unscale num den guess).1 / (unscale num den guess).2 < pow2 52 then guess - 1 else guess
    2 ^ 52 ≤ (num / den : ℚ) / 2 ^ q ∧ (num / den : ℚ) / 2 ^ q < 2 ^ 53 := by
  intro q
  obtain ⟨lower, upper⟩ := ratio_bounds num' den'
  obtain ⟨positive, ratio⟩ := unscale_ratio num den' guess
  have compare : (unscale num den guess).1 / (unscale num den guess).2 < pow2 52 ↔
      (num / den : ℚ) / 2 ^ guess < 2 ^ 52 := by
    rw [← ratio, div_lt_iff₀ (Nat.cast_pos.mpr positive), Nat.div_lt_iff_lt_mul positive, ← cast_pow2]
    exact_mod_cast Iff.rfl
  have step : (2 : ℚ) ^ (guess - 1) * 2 = 2 ^ guess := by
    rw [← zpow_add_one₀ two_ne_zero, sub_add_cancel]
  have halved : (2 : ℚ) ^ ((num.log2 : Int) - den.log2 - 1) = 2 ^ 52 * 2 ^ (guess - 1) := by
    rw [guessed, ← zpow_natCast, ← zpow_add₀ two_ne_zero]
    congr 1
    push_cast
    ring
  have doubled : (2 : ℚ) ^ ((num.log2 : Int) - den.log2 + 1) = 2 ^ 53 * 2 ^ guess := by
    rw [guessed, ← zpow_natCast, ← zpow_add₀ two_ne_zero]
    congr 1
    push_cast
    ring
  rw [halved] at lower
  rw [doubled] at upper
  have below (e : Int) : (0 : ℚ) < 2 ^ e := by positivity
  by_cases small : (unscale num den guess).1 / (unscale num den guess).2 < pow2 52
  · have chosen : q = guess - 1 := if_pos small
    have bound := compare.mp small
    rw [div_lt_iff₀ (below guess)] at bound
    rw [chosen, le_div_iff₀ (below _), div_lt_iff₀ (below _)]
    exact ⟨lower.le, by linarith⟩
  · have chosen : q = guess := if_neg small
    rw [chosen, div_lt_iff₀ (below _)]
    exact ⟨not_lt.mp fun less => small (compare.mpr less), upper⟩

/-- The word of a positive ratio: its mantissa counts a power of two, but none below the least. -/
theorem ofRatio_eq_word (negative : Bool) {num den : Nat} (num' : 0 < num) (den' : 0 < den) : ∃ g : Int,
    2 ^ 52 ≤ (num / den : ℚ) / 2 ^ g ∧ (num / den : ℚ) / 2 ^ g < 2 ^ 53 ∧
      ofRatio negative num den = withSign negative (min ((max g (-1074) + 1074).toNat * pow2 52 +
        roundDiv (unscale num den (max g (-1074))).1 (unscale num den (max g (-1074))).2) (2047 * pow2 52)) := by
  obtain ⟨lower, upper⟩ := guess_bounds num' den' rfl
  refine ⟨_, lower, upper, ?_⟩
  rw [ofRatio, if_neg num'.ne']

/-- A positive ratio is rounded. -/
theorem rounds_ofRatio (negative : Bool) {num den : Nat} (num' : 0 < num) (den' : 0 < den) :
    ∃ q r, Rounds negative (num / den) q r (ofRatio negative num den) := by
  obtain ⟨g, lower, upper, word⟩ := ofRatio_eq_word negative num' den'
  obtain ⟨positive, ratio⟩ := unscale_ratio num den' (max g (-1074))
  have room : (num / den : ℚ) / 2 ^ max g (-1074) < (2 * pow2 52 : Nat) := by
    have whole : ((2 * pow2 52 : Nat) : ℚ) = 2 ^ 53 := by
      push_cast
      rw [cast_pow2]
      norm_num
    rw [whole]
    refine lt_of_le_of_lt ?_ upper
    have positive : (0 : ℚ) ≤ num / den := by positivity
    exact div_le_div_of_nonneg_left positive (by positivity) (zpow_le_zpow_right₀ one_le_two (le_max_left _ _))
  refine ⟨max g (-1074), _, le_max_right _ _, ?_, roundDiv_le_of_lt positive (ratio ▸ room),
    ratio ▸ roundDiv_le positive, word⟩
  rcases le_or_gt (-1074) g with normal | least
  · rw [max_eq_left normal] at ratio ⊢
    refine .inl ⟨le_roundDiv (unscale_ratio num den' g).1 ?_, lower⟩
    rw [ratio, cast_pow2]
    exact lower
  · exact .inr (max_eq_right least.le)

variable {negative : Bool} {ratio : ℚ} {q : Int} {r : Nat}

theorem Rounds.unsigned (rounds : Rounds negative ratio q r x) :
    x.unsigned = min ((q + 1074).toNat * pow2 52 + r) (2047 * pow2 52) := by
  rw [rounds.word, unsigned_withSign]
  exact lt_of_le_of_lt (min_le_right _ _) (by decide)

/-- Below the overflow a ratio is rounded to a finite number. -/
theorem Rounds.word_lt (rounds : Rounds negative ratio q r x) (below : ratio < overflow) :
    (q + 1074).toNat * pow2 52 + r < 2047 * pow2 52 := by
  obtain ⟨least, normal, carries, near, -⟩ := rounds
  by_contra beyond
  have mid : pow2 52 = 4503599627370496 := rfl
  rw [mid] at beyond carries
  have top : 971 ≤ q := by omega
  have large : (2 : ℚ) ^ 52 * 2 ^ q ≤ ratio := by
    rw [← le_div_iff₀ (by positivity)]
    exact (normal.resolve_right (by omega)).2
  have positive : (0 : ℚ) < 2 ^ (970 : Int) := by positivity
  have twice : (2 : ℚ) ^ (971 : Int) = 2 ^ (970 : Int) * 2 := zpow_add_one₀ two_ne_zero 970
  have fourfold : (2 : ℚ) ^ (972 : Int) = 2 ^ (971 : Int) * 2 := zpow_add_one₀ two_ne_zero 971
  rw [overflow] at below
  rcases top.lt_or_eq with more | rfl
  · have power : (2 : ℚ) ^ (972 : Int) ≤ 2 ^ q := zpow_le_zpow_right₀ one_le_two more
    rw [fourfold, twice] at power
    generalize (2 : ℚ) ^ (970 : Int) = least at below power positive
    generalize (2 : ℚ) ^ q = count at large power
    linarith only [below, power, large, positive]
  · -- At the top, only the greatest mantissa would carry.
    obtain rfl : r = 9007199254740992 := by omega
    rw [twice] at near
    generalize (2 : ℚ) ^ (970 : Int) = least at below near positive
    have middle : (9007199254740992 - 1 / 2) * (least * 2) ≤ ratio := by
      rw [← le_div_iff₀ (by positivity)]
      push_cast at near
      linarith only [near]
    linarith only [below, middle]

theorem Rounds.isFinite (rounds : Rounds negative ratio q r x) (below : ratio < overflow) : x.isFinite = true := by
  have bound := rounds.word_lt below
  have word := rounds.unsigned
  rw [min_eq_left bound.le] at word
  have field : x.exponentField < 2047 := by
    rw [exponentField, word, Nat.div_lt_iff_lt_mul (pow2_pos _)]
    exact bound
  simp only [Binary64.isFinite, ne_eq, decide_eq_true_eq]
  exact field.ne

/-- What a ratio is rounded to counts the power of two that was chosen for it. -/
theorem Rounds.magnitude_eq (rounds : Rounds negative ratio q r x) (below : ratio < overflow) :
    x.magnitude = r * 2 ^ q := by
  have word := rounds.unsigned
  rw [min_eq_left (rounds.word_lt below).le] at word
  have exponent : ((q + 1074).toNat : Int) - 1074 = q := by have := rounds.least; omega
  rw [magnitude_word word rounds.carries (rounds.normal.imp And.left (by rintro rfl; rfl)), exponent]

/-- From one on, rounding adds at most one part in `2 ^ 53`. -/
theorem Rounds.magnitude_le (rounds : Rounds negative ratio q r x) (below : ratio < overflow) (one : 1 ≤ ratio) :
    x.magnitude ≤ ratio * (1 + 1 / 2 ^ 53) := by
  have positive : (0 : ℚ) < 2 ^ q := by positivity
  have unit : 2 ^ q ≤ ratio / 2 ^ 52 := by
    rcases rounds.normal with ⟨-, normal⟩ | rfl
    · rw [le_div_iff₀ positive] at normal
      rw [le_div_iff₀ (by positivity)]
      linarith
    · have tiny : (2 : ℚ) ^ (-1074 : Int) ≤ 2 ^ (-52 : Int) := zpow_le_zpow_right₀ one_le_two (by decide)
      rw [zpow_neg (2 : ℚ) 52] at tiny
      have share : ((2 : ℚ) ^ (52 : Int))⁻¹ ≤ ratio / 2 ^ 52 := by
        rw [inv_eq_one_div]
        exact div_le_div_of_nonneg_right one (by positivity)
      exact tiny.trans share
  have near : (r : ℚ) * 2 ^ q ≤ ratio + 2 ^ q / 2 := by
    have scaled := mul_le_mul_of_nonneg_right rounds.near positive.le
    rwa [add_mul, div_mul_cancel₀ _ positive.ne', one_div_mul_eq_div] at scaled
  rw [rounds.magnitude_eq below]
  linarith

/-! ## Numbers that stay finite -/

theorem isFinite_zero (negative : Bool) : (zero negative).isFinite = true := by
  cases negative <;> decide

theorem isFinite_ofRatio (negative : Bool) {num den : Nat} (den' : 0 < den) (below : (num / den : ℚ) < overflow) :
    (ofRatio negative num den).isFinite = true := by
  rcases Nat.eq_zero_or_pos num with rfl | num'
  · exact isFinite_zero negative
  · obtain ⟨q, r, rounds⟩ := rounds_ofRatio negative num' den'
    exact rounds.isFinite below

/-- A product is finite if the exact product does not overflow. -/
theorem isFinite_mul {x y : Binary64} (below : x.magnitude * y.magnitude < overflow) :
    (x.mul y).isFinite = true := by
  have product : x.magnitude * y.magnitude = (x.mantissa * y.mantissa : Nat) * 2 ^ (x.scale + y.scale) := by
    rw [magnitude, magnitude, zpow_add₀ two_ne_zero]
    push_cast
    ring
  rw [product] at below
  rw [mul, ofScaled]
  split
  · rename_i nonneg
    refine isFinite_ofRatio _ Nat.one_pos ?_
    rwa [Nat.cast_one, div_one, Nat.cast_mul, cast_pow2_toNat nonneg]
  · rename_i negative
    refine isFinite_ofRatio _ (by simpa using pow2_pos _) ?_
    rwa [one_mul, cast_pow2_toNat (by omega), zpow_neg, div_inv_eq_mul]

/-- A natural number below the overflow is rounded to a finite number, at most one part in `2 ^ 53` greater. -/
theorem magnitude_natural {n : Nat} (positive : 0 < n) (below : (n : ℚ) < overflow) :
    (ofRatio false n 1).isFinite = true ∧ (ofRatio false n 1).magnitude ≤ n * (1 + 1 / 2 ^ 53) := by
  obtain ⟨q, r, rounds⟩ := rounds_ofRatio false positive Nat.one_pos
  rw [Nat.cast_one, div_one] at rounds
  have one : (1 : ℚ) ≤ n := by exact_mod_cast positive
  exact ⟨rounds.isFinite below, rounds.magnitude_le below one⟩

end LiveTable.Binary64
