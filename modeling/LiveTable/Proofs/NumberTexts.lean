import LiveTable.Proofs.Magnitudes
import LiveTable.Proofs.Opening

/-!
# Numbers read back

A number that is written by the grammar of numbers is read as its parts. Integers are written with digits alone
and come back as they are. A finite floating-point number is written with a point or an exponent and comes back
as some floating-point number: its digits lie within half a unit of it, so they do not overflow, not even at the
very top.
-/

namespace LiveTable.Json

open Binary64

namespace NumberText

/-- The characters of a number. -/
def chars (t : NumberText) : List Char :=
  (if t.negative then ['-'] else []) ++ t.whole ++
    (match t.fraction with
      | none => []
      | some fraction => '.' :: fraction) ++
    (match t.exponent with
      | none => []
      | some (down, digits) => 'e' :: (if down then '-' else '+') :: digits)

/-- A row of digits, and there is one. -/
def Digits (digits : List Char) : Prop := digits ≠ [] ∧ ∀ c ∈ digits, c.isDigit = true

theorem digits_zero : Digits ['0'] := ⟨List.cons_ne_nil _ _, List.all_eq_true.mp rfl⟩

/-- The parts of a number are rows of digits, and in front of the point no zero pads them. -/
structure Proper (t : NumberText) : Prop where
  whole : Digits t.whole
  unpadded : ∀ c rest, t.whole ≠ '0' :: c :: rest
  fraction : ∀ digits, t.fraction = some digits → Digits digits
  exponent : ∀ down digits, t.exponent = some (down, digits) → Digits digits

/-- What follows the digits in front of the point. -/
def behind (t : NumberText) : List Char :=
  (match t.fraction with
    | none => []
    | some fraction => '.' :: fraction) ++
  match t.exponent with
    | none => []
    | some (down, digits) => 'e' :: (if down then '-' else '+') :: digits

theorem chars_eq (t : NumberText) : t.chars = (if t.negative then ['-'] else []) ++ (t.whole ++ t.behind) := by
  simp only [chars, behind, List.append_assoc]

/-- A row of digits is read up to where no digit follows. -/
theorem digits?_append {digits : List Char} (proper : Digits digits) (rest : List Char)
    (stops : ∀ c ∈ rest.head?, c.isDigit = false) : digits? (digits ++ rest) = some (digits, rest) := by
  have span : (digits ++ rest).span Char.isDigit = (digits, rest) := by
    rw [List.span_eq_takeWhile_dropWhile, List.takeWhile_append_of_pos proper.2,
      List.dropWhile_append_of_pos proper.2]
    cases rest with
    | nil => simp
    | cons c rest =>
      have first : c.isDigit = false := stops c rfl
      simp [first]
  rw [digits?, span]
  obtain ⟨c, more, rfl⟩ := List.exists_cons_of_ne_nil proper.1
  rfl

theorem digits?_all {digits : List Char} (proper : Digits digits) : digits? digits = some (digits, []) := by
  simpa using digits?_append proper [] (by simp)

theorem exponent?_chars {digits : List Char} (proper : Digits digits) (down : Bool) :
    exponent? ((if down then '-' else '+') :: digits) = some (down, digits) := by
  cases down <;> simp [exponent?, digits?_all proper]

theorem ofWhole_behind {t : NumberText} (proper : t.Proper) : ofWhole t.negative t.whole t.behind = some t := by
  obtain ⟨negative, whole, fraction, exponent⟩ := t
  obtain ⟨-, -, fractions, exponents⟩ := proper
  dsimp only at fractions exponents ⊢
  rcases exponent with _ | ⟨down, digits⟩
  · cases fraction with
    | none => rfl
    | some fraction => simp [behind, ofWhole, digits?_all (fractions fraction rfl)]
  · have raised := exponent?_chars (exponents down digits rfl) down
    cases fraction with
    | none => simp [behind, ofWhole, raised]
    | some fraction =>
      have read := digits?_append (fractions fraction rfl) ('e' :: (if down then '-' else '+') :: digits)
        (by simp)
      simp [behind, ofWhole, read, raised]

theorem behind_stops (t : NumberText) : ∀ c ∈ t.behind.head?, c.isDigit = false := by
  unfold behind
  cases t.fraction with
  | none => rcases t.exponent with _ | ⟨down, digits⟩ <;> simp
  | some fraction => simp

/-- A number is read as its parts. -/
theorem ofChars?_chars {t : NumberText} (proper : t.Proper) : ofChars? t.chars = some t := by
  obtain ⟨c, more, whole⟩ := List.exists_cons_of_ne_nil proper.whole.1
  have unsigned : c ≠ '-' := by
    rintro rfl
    exact absurd (proper.whole.2 '-' (by simp [whole])) (by decide)
  rw [chars_eq]
  unfold ofChars?
  split
  rename_i negative rest signed
  have front : negative = t.negative ∧ rest = t.whole ++ t.behind := by
    cases sign : t.negative with
    | true =>
      rw [sign] at signed
      cases signed
      exact ⟨rfl, rfl⟩
    | false =>
      rw [sign] at signed
      split at signed
      · rename_i first
        rw [whole] at first
        exact absurd (List.cons.inj first).1 unsigned
      · cases signed
        exact ⟨rfl, rfl⟩
  obtain ⟨rfl, rfl⟩ := front
  rw [digits?_append proper.whole t.behind t.behind_stops]
  simp only [Option.bind_eq_bind, Option.bind_some]
  -- No zero pads the digits, so they are taken as they are.
  split
  · rename_i c rest _ same
    exact absurd (congrArg Prod.fst same) (proper.unpadded c rest)
  · rename_i same
    cases same
    exact ofWhole_behind proper

/-! ## Integers -/

theorem digits_toDigits (n : Nat) : Digits (Nat.toDigits 10 n) := ⟨Nat.toDigits_ne_nil, isDigit_toDigits n⟩

theorem digitsValue_toDigits (n : Nat) : digitsValue (Nat.toDigits 10 n) = n :=
  Nat.ofDigitChars_toDigits (by decide) (by decide)

/-- An integer has digits alone. -/
def ofInt (n : Int) : NumberText := ⟨decide (n < 0), Nat.toDigits 10 n.natAbs, none, none⟩

theorem proper_ofInt (n : Int) : (ofInt n).Proper where
  whole := digits_toDigits n.natAbs
  unpadded c rest padded := by
    have zero := eq_zero_of_toDigits padded
    rw [ofInt, zero] at padded
    cases padded
  fraction := nofun
  exponent := nofun

theorem chars_ofInt (n : Int) : (ofInt n).chars = (toString n).toList := by
  cases n with
  | ofNat n =>
    have text : toString (Int.ofNat n) = n.repr := rfl
    rw [text, Nat.toList_repr]
    simp [chars, ofInt]
  | negSucc n =>
    have text : toString (Int.negSucc n) = "-" ++ (n + 1).repr := rfl
    rw [text, String.toList_append, Nat.toList_repr]
    simp [chars, ofInt, Int.natAbs_negSucc]

/-- An integer of sixty-four bits, with or without a sign, is read as it is. -/
theorem value?_ofInt {n : Int} (least : -(pow2 63 : Int) ≤ n) (greatest : n < pow2 64) :
    (ofInt n).value? = some (.integer n) := by
  simp only [value?, ofInt, digitsValue_toDigits]
  by_cases negative : n < 0
  · rw [if_pos (by simpa using negative), if_pos (by omega)]
    have same : -(n.natAbs : Int) = n := by omega
    rw [same]
  · rw [if_neg (by simpa using negative), if_pos (by omega)]
    have same : (n.natAbs : Int) = n := by omega
    rw [same]

/-! ## Decimals -/

theorem digitsValue_zeros (n : Nat) : digitsValue (zeros n) = 0 := by
  induction n with
  | zero => rfl
  | succ n ih =>
    rw [zeros, List.replicate_succ, digitsValue_cons, ← zeros, ih]
    simp [digitValue]

/-- The number with these digits whose first one counts a power of ten, in the notation of documents. -/
def ofDecimal (negative : Bool) (digits : List Char) (e : Int) : NumberText :=
  if -5 ≤ e ∧ e < 16 then
    if e < 0 then ⟨negative, ['0'], some (zeros (-e - 1).toNat ++ digits), none⟩
    else if digits.length ≤ e.toNat + 1 then
      ⟨negative, digits ++ zeros (e.toNat + 1 - digits.length), some ['0'], none⟩
    else ⟨negative, digits.take (e.toNat + 1), some (digits.drop (e.toNat + 1)), none⟩
  else ⟨negative, digits.take 1, if digits.length ≤ 1 then none else some (digits.drop 1),
    some (decide (e < 0), digitChars e.natAbs)⟩

variable {negative : Bool} {digits : List Char} {e : Int}

/-- The text of digits is the one that documents have. -/
theorem chars_ofDecimal (some' : digits ≠ []) : (ofDecimal negative digits e).chars =
    (if negative then ['-'] else []) ++ if decide (-5 ≤ e) && decide (e < 16)
      then numberLayout.positional digits e else numberLayout.exponential digits e := by
  have mark : numberLayout.integralMark.toList = ['.', '0'] := by decide
  unfold ofDecimal
  by_cases near : -5 ≤ e ∧ e < 16
  · have chosen : (decide (-5 ≤ e) && decide (e < 16)) = true := by simpa using near
    rw [if_pos near, chosen]
    simp only [if_true, Layout.positional]
    by_cases below : e < 0
    · simp [chars, below]
    · by_cases short : digits.length ≤ e.toNat + 1
      · simp [chars, below, short, mark]
      · simp [chars, below, short]
  · have padding : zeros (numberLayout.exponentWidth - (digitChars e.natAbs).length) = [] := by
      have some'' : 0 < (digitChars e.natAbs).length := List.length_pos_of_ne_nil Nat.toDigits_ne_nil
      have width : numberLayout.exponentWidth = 1 := rfl
      rw [width, Nat.sub_eq_zero_of_le some'']
      rfl
    have plus : numberLayout.plus = true := rfl
    have sole : numberLayout.soleDigitMark.toList = [] := by decide
    have chosen : (decide (-5 ≤ e) && decide (e < 16)) = false := by
      rw [← Bool.decide_and]
      exact decide_eq_false near
    rw [if_neg near, chosen]
    simp only [Bool.false_eq_true, if_false, Layout.exponential, padding]
    obtain ⟨c, rest, rfl⟩ := List.exists_cons_of_ne_nil some'
    cases rest with
    | nil => by_cases down : e < 0 <;> simp [chars, down, plus, sole]
    | cons d rest => by_cases down : e < 0 <;> simp [chars, down, plus]

theorem Digits.zeros (proper : Digits digits) (n : Nat) :
    Digits (digits ++ Binary64.zeros n) ∧ Digits (Binary64.zeros n ++ digits) := by
  have zero : ∀ c ∈ Binary64.zeros n, c.isDigit = true := by
    intro c member
    rw [List.eq_of_mem_replicate member]
    decide
  refine ⟨⟨by simp [proper.1], ?_⟩, ⟨by simp [proper.1], ?_⟩⟩
  · exact List.forall_mem_append.mpr ⟨proper.2, zero⟩
  · exact List.forall_mem_append.mpr ⟨zero, proper.2⟩

theorem Digits.take (proper : Digits digits) (n : Nat) : Digits (digits.take (n + 1)) :=
  ⟨by simp [proper.1], fun c member => proper.2 c (List.mem_of_mem_take member)⟩

theorem Digits.drop (proper : Digits digits) {n : Nat} (more : ¬ digits.length ≤ n) : Digits (digits.drop n) :=
  ⟨by rwa [ne_eq, List.drop_eq_nil_iff], fun c member => proper.2 c (List.mem_of_mem_drop member)⟩

theorem proper_ofDecimal (proper : Digits digits) (unpadded : ∀ rest, digits ≠ '0' :: rest) :
    (ofDecimal negative digits e).Proper := by
  obtain ⟨c, rest, rfl⟩ := List.exists_cons_of_ne_nil proper.1
  have first : c ≠ '0' := by
    rintro rfl
    exact unpadded rest rfl
  unfold ofDecimal
  split_ifs with near below short sole
  · exact ⟨digits_zero, by simp, by rintro _ ⟨⟩; exact (proper.zeros _).2, nofun⟩
  · exact ⟨(proper.zeros _).1, by simp [first], by rintro _ ⟨⟩; exact digits_zero, nofun⟩
  · exact ⟨proper.take _, by simp [first], by rintro _ ⟨⟩; exact proper.drop short, nofun⟩
  · exact ⟨proper.take 0, by simp, nofun, by rintro _ _ ⟨⟩; exact digits_toDigits _⟩
  · exact ⟨proper.take 0, by simp, by rintro _ ⟨⟩; exact proper.drop sole,
      by rintro _ _ ⟨⟩; exact digits_toDigits _⟩

theorem signed_digits (e : Int) : (if decide (e < 0) then -(digitsValue (digitChars e.natAbs) : Int)
    else digitsValue (digitChars e.natAbs)) = e := by
  rw [digitChars, digitsValue_toDigits]
  split <;> rename_i down <;> simp only [decide_eq_true_eq] at down <;> omega

/-- The number with these digits is what they say. -/
theorem magnitude_ofDecimal (negative : Bool) (some' : digits ≠ []) :
    (ofDecimal negative digits e).magnitude = digitsValue digits * 10 ^ (e + 1 - digits.length) := by
  have length := List.length_pos_of_ne_nil some'
  unfold ofDecimal
  split_ifs with near below short sole
  · have value : digitsValue ('0' :: (zeros (-e - 1).toNat ++ digits)) = digitsValue digits := by
      rw [digitsValue_cons, digitsValue_append, digitsValue_zeros]
      simp [digitValue]
    have size : ((zeros (-e - 1).toNat ++ digits).length : Int) = digits.length - e - 1 := by
      simp only [zeros, List.length_append, List.length_replicate]
      omega
    simp only [NumberText.magnitude, power, Option.getD_some, List.cons_append, List.nil_append, value, size]
    congr 2
    ring
  · have value : digitsValue (digits ++ zeros (e.toNat + 1 - digits.length) ++ ['0']) =
        digitsValue digits * 10 ^ (e.toNat + 1 - digits.length) * 10 := by
      rw [digitsValue_append, digitsValue_append, digitsValue_zeros]
      simp [zeros, digitsValue, digitValue]
    have exponent : e + 1 - digits.length = ((e.toNat + 1 - digits.length : Nat) : Int) := by omega
    simp only [NumberText.magnitude, power, Option.getD_some, value, exponent, zpow_natCast]
    push_cast
    norm_num
    ring
  · have size : ((digits.drop (e.toNat + 1)).length : Int) = digits.length - e - 1 := by
      rw [List.length_drop]
      omega
    simp only [NumberText.magnitude, power, Option.getD_some, List.take_append_drop, size]
    congr 2
    ring
  · have whole : digits.take 1 = digits := List.take_of_length_le sole
    simp only [NumberText.magnitude, power, Option.getD_none, List.append_nil, whole, signed_digits, List.length_nil]
    congr 2
    omega
  · have size : ((digits.drop 1).length : Int) = digits.length - 1 := by
      rw [List.length_drop]
      omega
    simp only [NumberText.magnitude, power, Option.getD_some, List.take_append_drop, signed_digits, size]
    congr 2
    ring

end NumberText

/-! ## Shortest decimals -/

/-- A decimal that is not zero and at most half a unit greater than a number. -/
structure Within (x : Binary64) (d : Decimal) : Prop where
  positive : 0 < d.digits
  near : (d.digits : ℚ) * 10 ^ d.exponent ≤ (x.mantissa + 1 / 2) * 2 ^ x.scale

/-- A decimal on a grid lies in an interval, whose ends are in it or not. -/
def inside (i : Interval) (e : Int) (digits : Nat) : Bool :=
  let up := pow10 (-e).toNat
  let scaled := digits * (i.den * pow10 e.toNat)
  if i.closed then i.low * up ≤ scaled && scaled ≤ i.high * up else i.low * up < scaled && scaled < i.high * up

theorem bounds_of_inside {i : Interval} {e : Int} {digits : Nat} (holds : inside i e digits = true) :
    i.low * pow10 (-e).toNat ≤ digits * (i.den * pow10 e.toNat) ∧
      digits * (i.den * pow10 e.toNat) ≤ i.high * pow10 (-e).toNat := by
  unfold inside at holds
  dsimp only at holds
  split at holds <;> simp only [Bool.and_eq_true, decide_eq_true_eq] at holds
  · exact holds
  · exact ⟨holds.1.le, holds.2.le⟩

/-- Of two neighbours on a grid one is taken that lies in the interval. -/
theorem chosen_inside {tie : Tie} {e : Int} {d : Decimal} {floor rest step : Nat} (within : Nat → Bool)
    (found : (if rest = 0 then (if within floor then some (⟨floor, e⟩ : Decimal) else none)
      else match within floor, within (floor + 1) with
        | false, false => none
        | true, false => some ⟨floor, e⟩
        | false, true => some ⟨floor + 1, e⟩
        | true, true =>
          if 2 * rest < step then some ⟨floor, e⟩
          else if step < 2 * rest then some ⟨floor + 1, e⟩
          else match tie with
            | .toEven => some ⟨floor + floor % 2, e⟩
            | .away => some ⟨floor + 1, e⟩) = some d) : d.exponent = e ∧ within d.digits = true := by
  have taken (n : Nat) (lies : within n = true) (same : some ⟨n, e⟩ = some d) :
      d.exponent = e ∧ within d.digits = true := by
    cases same
    exact ⟨rfl, lies⟩
  split at found
  · split at found
    · rename_i lies
      exact taken _ lies found
    · cases found
  · split at found
    · cases found
    · rename_i lies _
      exact taken _ lies found
    · rename_i _ lies
      exact taken _ lies found
    · rename_i below above
      split at found
      · exact taken _ below found
      · split at found
        · exact taken _ above found
        · cases tie with
          | away => exact taken _ above found
          | toEven =>
            -- The even one of the two.
            dsimp only at found
            rcases Nat.mod_two_eq_zero_or_one floor with even | odd
            · rw [even] at found
              exact taken _ below found
            · rw [odd] at found
              exact taken _ above found

theorem inside_nearestOnGrid {tie : Tie} {i : Interval} {e : Int} {d : Decimal}
    (found : nearestOnGrid tie i e = some d) : d.exponent = e ∧ inside i e d.digits = true :=
  chosen_inside (inside i e) found

/-- A power as a ratio of natural powers. -/
theorem zpow_ratio {b : ℚ} (base : b ≠ 0) (e : Int) : b ^ e = b ^ e.toNat / b ^ (-e).toNat := by
  rw [← zpow_natCast, ← zpow_natCast, ← zpow_sub₀ base]
  congr 1
  omega

theorem within_nearestOnGrid {tie : Tie} {x : Binary64} {e : Int} {d : Decimal} (some' : 0 < x.mantissa)
    (found : nearestOnGrid tie x.interval e = some d) : Within x d := by
  obtain ⟨exponent, lies⟩ := inside_nearestOnGrid found
  obtain ⟨low, high⟩ := bounds_of_inside lies
  have den : 0 < x.interval.den := pow2_pos _
  constructor
  · have least : 0 < x.interval.low * pow10 (-e).toNat := by
      refine Nat.mul_pos (Nat.mul_pos ?_ (pow2_pos _)) (pow10_pos _)
      split <;> omega
    exact Nat.pos_of_mul_pos_right (least.trans_le low)
  · have high' : (d.digits : ℚ) * (x.interval.den * 10 ^ e.toNat) ≤ x.interval.high * 10 ^ (-e).toNat := by
      rw [← cast_pow10, ← cast_pow10]
      exact_mod_cast high
    have half : (x.interval.high : ℚ) / x.interval.den = (x.mantissa + 1 / 2) * 2 ^ x.scale := by
      have quarter : (2 : ℚ) ^ x.scale = 2 ^ (x.scale - 2) * 4 := by
        rw [zpow_sub₀ two_ne_zero]
        norm_num
      rw [quarter, zpow_ratio two_ne_zero]
      simp only [interval]
      push_cast
      rw [cast_pow2, cast_pow2]
      ring
    rw [exponent, ← half, zpow_ratio (by norm_num), ← mul_div_assoc, div_le_div_iff₀ (by positivity) (by positivity)]
    linarith only [high']

/-- The shortest digits of a number, if there are any, are at most half a unit greater. -/
theorem within_shortest {tie : Tie} {x : Binary64} (some' : 0 < x.mantissa) :
    shortest tie x = ⟨0, 0⟩ ∨ Within x (shortest tie x) := by
  unfold shortest
  dsimp only
  generalize chosen : List.findSome? _ _ = found
  cases found with
  | none => exact .inl rfl
  | some d =>
    obtain ⟨n, -, here⟩ := List.exists_of_findSome?_eq_some chosen
    exact .inr (within_nearestOnGrid some' here)

/-! ## Written numbers -/

theorem exists_trimmed (digits : List Char) : ∃ n, digits = trimZeros digits ++ zeros n := by
  have parts := List.takeWhile_append_dropWhile (p := (· == '0')) (l := digits.reverse)
  have same : digits.reverse.takeWhile (· == '0') = zeros (digits.reverse.takeWhile (· == '0')).length := by
    rw [zeros, List.eq_replicate_iff]
    exact ⟨rfl, fun c member => by simpa using List.all_eq_true.mp List.all_takeWhile c member⟩
  refine ⟨(digits.reverse.takeWhile (· == '0')).length, ?_⟩
  have whole := congrArg List.reverse parts
  rw [List.reverse_append, List.reverse_reverse, same, zeros, List.reverse_replicate] at whole
  exact whole.symm

/-- The digits of a number that is not zero, without the zeros at their end. -/
theorem trimmed {n : Nat} (positive : 0 < n) (e : Int) : NumberText.Digits (trimZeros (digitChars n)) ∧
    (∀ rest, trimZeros (digitChars n) ≠ '0' :: rest) ∧
    (digitsValue (trimZeros (digitChars n)) : ℚ) *
      10 ^ (e + (digitChars n).length - (trimZeros (digitChars n)).length) = n * 10 ^ e := by
  obtain ⟨k, split⟩ := exists_trimmed (digitChars n)
  have value : digitsValue (trimZeros (digitChars n)) * 10 ^ k = n := by
    have whole := NumberText.digitsValue_toDigits n
    rw [← digitChars, split, digitsValue_append, NumberText.digitsValue_zeros, zeros, List.length_replicate] at whole
    exact whole
  refine ⟨⟨?_, ?_⟩, ?_, ?_⟩
  · intro none
    rw [none, digitsValue, List.foldl_nil, Nat.zero_mul] at value
    omega
  · intro c member
    refine isDigit_toDigits n c ?_
    rw [← digitChars, split]
    exact List.mem_append_left _ member
  · intro rest padded
    rw [padded, List.cons_append] at split
    exact positive.ne' (eq_zero_of_toDigits split)
  · have length : (digitChars n).length = (trimZeros (digitChars n)).length + k := by
      conv_lhs => rw [split]
      rw [List.length_append, zeros, List.length_replicate]
    have power : e + (digitChars n).length - (trimZeros (digitChars n)).length = e + k := by omega
    have cast : (n : ℚ) = digitsValue (trimZeros (digitChars n)) * 10 ^ k := by exact_mod_cast value.symm
    rw [cast, power, zpow_add₀ (by norm_num), zpow_natCast]
    ring

/-- The decimal that a finite number is written with; a zero has none. -/
def shown (x : Binary64) : Decimal :=
  if x.isZero then ⟨0, 0⟩ else shortest .toEven (withSign false x.unsigned)

/-- The parts of a finite number as it is written. -/
def written (x : Binary64) : NumberText :=
  if shown x = ⟨0, 0⟩ then .ofDecimal x.isNegative ['0'] 0
  else .ofDecimal x.isNegative (trimZeros (digitChars (shown x).digits))
    ((shown x).exponent + (digitChars (shown x).digits).length - 1)

variable {x : Binary64}

theorem mantissa_pos (some' : x.isZero = false) : 0 < x.mantissa := by
  have unsigned : x.unsigned ≠ 0 := by simpa [isZero] using some'
  unfold mantissa
  split
  · rename_i zero
    have whole := Nat.div_add_mod x.unsigned (pow2 52)
    rw [← exponentField, zero, Nat.mul_zero, Nat.zero_add] at whole
    rw [fraction, whole]
    omega
  · exact Nat.add_pos_left (pow2_pos _) _

/-- A decimal that is shown is not zero and at most half a unit greater than the number. -/
theorem within_shown (some' : shown x ≠ ⟨0, 0⟩) : 0 < (shown x).digits ∧
    ((shown x).digits : ℚ) * 10 ^ (shown x).exponent ≤ (x.mantissa + 1 / 2) * 2 ^ x.scale := by
  unfold shown at some' ⊢
  split at some'
  · exact absurd rfl some'
  · rename_i nonzero
    have same : (withSign false x.unsigned).unsigned = x.unsigned := unsigned_withSign false (unsigned_lt x)
    have positive : 0 < (withSign false x.unsigned).mantissa := mantissa_pos (by
      rw [isZero, same]
      simpa [isZero] using nonzero)
    have within := (within_shortest positive).resolve_left some'
    obtain ⟨mantissa, scale⟩ := mantissa_congr same
    rw [if_neg nonzero, ← mantissa, ← scale]
    exact ⟨within.positive, within.near⟩

theorem chars_written (finite : x.isFinite = true) : (numberLayout.write x).toList = (written x).chars := by
  have field : x.exponentField ≠ 2047 := by simpa [isFinite] using finite
  have number : x.isNaN = false := by simp [isNaN, field]
  have bounded : x.isInfinite = false := by simp [isInfinite, field]
  unfold Layout.write
  rw [number, bounded]
  simp only [Bool.false_eq_true, if_false]
  by_cases zero : x.isZero = true
  · have none : shown x = ⟨0, 0⟩ := if_pos zero
    rw [if_pos zero, written, if_pos none, String.toList_ofList, NumberText.chars_ofDecimal (by simp)]
    rfl
  · have decimal : numberLayout.decimal (withSign false x.unsigned) = shown x := (if_neg zero).symm
    rw [if_neg zero, decimal, String.toList_ofList, written]
    by_cases none : shown x = ⟨0, 0⟩
    · rw [if_pos none, none, NumberText.chars_ofDecimal (by simp)]
      rfl
    · rw [if_neg none, NumberText.chars_ofDecimal (trimmed (within_shown none).1 0).1.1]
      rfl

theorem proper_written (x : Binary64) : (written x).Proper := by
  unfold written
  split
  · have zero := NumberText.digits_zero
    exact ⟨zero, by simp [NumberText.ofDecimal, zeros], by rintro _ ⟨⟩; exact zero, nofun⟩
  · rename_i some'
    obtain ⟨digits, unpadded, -⟩ := trimmed (within_shown some').1 0
    exact NumberText.proper_ofDecimal digits unpadded

theorem value?_written (x : Binary64) : (written x).value? = (written x).real?.map .real := by
  have decimal (negative : Bool) (digits : List Char) (e : Int) : (NumberText.ofDecimal negative digits e).value? =
      (NumberText.ofDecimal negative digits e).real?.map .real := by
    unfold NumberText.ofDecimal
    split_ifs <;> rfl
  unfold written
  split <;> exact decimal ..

theorem magnitude_written (x : Binary64) : (written x).magnitude ≤ (x.mantissa + 1 / 2) * 2 ^ x.scale := by
  unfold written
  split
  · rw [NumberText.magnitude_ofDecimal _ (by simp)]
    have zero : digitsValue ['0'] = 0 := by decide
    rw [zero, Nat.cast_zero, zero_mul]
    positivity
  · rename_i some'
    obtain ⟨positive, near⟩ := within_shown some'
    obtain ⟨digits, -, value⟩ := trimmed positive (shown x).exponent
    rw [NumberText.magnitude_ofDecimal _ digits.1, sub_add_cancel, value]
    exact near

/-- The first digit of a number counts the power of ten that its exponent says. -/
theorem power_le_digits {digits : List Char} (proper : NumberText.Digits digits)
    (unpadded : ∀ rest, digits ≠ '0' :: rest) (e : Int) :
    (10 : ℚ) ^ e ≤ digitsValue digits * 10 ^ (e + 1 - digits.length) := by
  obtain ⟨some', all⟩ := proper
  obtain ⟨c, rest, rfl⟩ := List.exists_cons_of_ne_nil some'
  have first : 1 ≤ digitValue c := by
    have digit := all c (List.mem_cons_self ..)
    have nonzero : c.toNat ≠ 48 := by
      intro code
      obtain rfl : c = '0' := Char.toNat_inj.mp code
      exact unpadded rest rfl
    simp only [Char.isDigit, Bool.and_eq_true, decide_eq_true_eq, UInt32.le_iff_toNat_le] at digit
    have least : 48 ≤ c.toNat := digit.1
    rw [digitValue]
    omega
  have least : 10 ^ rest.length ≤ digitsValue (c :: rest) := by
    rw [digitsValue_cons]
    exact Nat.le_add_right_of_le (Nat.le_mul_of_pos_left _ first)
  have power : e = rest.length + (e + 1 - (c :: rest).length) := by
    rw [List.length_cons]
    omega
  calc (10 : ℚ) ^ e = ((10 ^ rest.length : Nat) : ℚ) * 10 ^ (e + 1 - (c :: rest).length) := by
        conv_lhs => rw [power, zpow_add₀ (by norm_num), zpow_natCast]
        push_cast
        rfl
    _ ≤ _ := mul_le_mul_of_nonneg_right (by exact_mod_cast least) (by positivity)

/-- Only the exponent of a number that is not readable may be too great to be counted. -/
theorem counted_written (bound : (written x).magnitude < readable) : (written x).Counted := by
  unfold written at bound ⊢
  split at bound <;> rename_i shown
  · rw [if_pos shown]
    nofun
  · rw [if_neg shown]
    obtain ⟨proper, unpadded, -⟩ := trimmed (within_shown shown).1 0
    generalize trimZeros _ = digits at *
    generalize (Json.shown x).exponent + _ - 1 = e at *
    have low : e < 309 := by
      by_contra high
      rw [NumberText.magnitude_ofDecimal _ proper.1] at bound
      have beyond := (readable_le_power (not_lt.mp high)).trans (power_le_digits proper unpadded e)
      exact absurd bound beyond.not_gt
    intro raising exponent
    have parts : 0 ≤ e ∧ raising = digitChars e.natAbs := by
      unfold NumberText.ofDecimal at exponent
      split_ifs at exponent <;> simp only [Option.some.injEq, Prod.mk.injEq, decide_eq_false_iff_not, not_lt] at exponent
      · exact ⟨exponent.1, exponent.2.symm⟩
      · exact ⟨exponent.1, exponent.2.symm⟩
    have limit : exponentLimit = 2147483647 := rfl
    rw [parts.2, digitChars, NumberText.digitsValue_toDigits, limit]
    omega

/-! ## Written numbers are read -/

theorem withSign_self (x : Binary64) : withSign x.isNegative x.unsigned = x := by
  have half : pow2 63 = 9223372036854775808 := rfl
  have bound := x.bits.toNat_lt
  obtain ⟨bits⟩ := x
  simp only [withSign, Binary64.unsigned, isNegative, half, Nat.toUInt64_eq, Binary64.mk.injEq] at bound ⊢
  apply UInt64.toNat_inj.mp
  rw [UInt64.toNat_ofNat']
  by_cases negative : bits.toNat / 9223372036854775808 = 1
  · simp only [negative, decide_true, if_true]
    omega
  · simp only [negative, decide_false, Bool.false_eq_true, if_false]
    omega

/-- Three finite numbers at most are not readable when half a unit is added to them: the greatest ones. -/
theorem greatest_of_readable_le (finite : x.isFinite = true)
    (beyond : readable ≤ (x.mantissa + 1 / 2) * 2 ^ x.scale) :
    ∃ k ∈ [1, 2, 3], x.unsigned = 2047 * pow2 52 - k := by
  have mid : pow2 52 = 4503599627370496 := rfl
  have field : x.exponentField ≠ 2047 := by simpa [isFinite] using finite
  have word : x.unsigned = x.exponentField * 4503599627370496 + x.fraction := by
    rw [exponentField, fraction, mid]
    omega
  have fraction : x.fraction < 4503599627370496 := Nat.mod_lt _ (by decide)
  have bound : x.unsigned < 9223372036854775808 := unsigned_lt x
  have mantissa : x.mantissa < 2 ^ 53 := by
    unfold Binary64.mantissa
    split <;> omega
  have mantissa' : (x.mantissa : ℚ) + 1 / 2 ≤ 2 ^ 53 := by
    have succ : ((x.mantissa + 1 : Nat) : ℚ) ≤ ((2 ^ 53 : Nat) : ℚ) := Nat.cast_le.mpr mantissa
    push_cast at succ
    linarith only [succ]
  have high : 971 ≤ x.scale := by
    by_contra low
    have half : (2 : ℚ) ^ (971 : Int) = 2 ^ (970 : Int) * 2 := zpow_add_one₀ two_ne_zero 970
    have power : (2 : ℚ) ^ x.scale ≤ 2 ^ (970 : Int) := zpow_le_zpow_right₀ one_le_two (by omega)
    have positive : (0 : ℚ) < 2 ^ (970 : Int) := by positivity
    rw [readable, half] at beyond
    generalize (2 : ℚ) ^ (970 : Int) = unit at *
    have above := beyond.trans (mul_le_mul mantissa' power (by positivity) (by positivity))
    linarith only [above, positive]
  have top : x.exponentField = 2046 ∧ x.scale = 971 ∧ x.mantissa = 4503599627370496 + x.fraction := by
    unfold Binary64.mantissa
    unfold scale at high ⊢
    split at high
    · omega
    · rename_i normal
      rw [if_neg normal, if_neg normal]
      omega
  have least : 9007199254740989 ≤ x.mantissa := by
    rw [readable, top.2.1] at beyond
    have units := le_of_mul_le_mul_right beyond (by positivity)
    by_contra less
    have less' : ((x.mantissa + 1 : Nat) : ℚ) ≤ ((9007199254740989 : Nat) : ℚ) := Nat.cast_le.mpr (by omega)
    push_cast at less'
    linarith only [units, less']
  refine ⟨2047 * pow2 52 - x.unsigned, ?_, ?_⟩
  · simp only [List.mem_cons, List.not_mem_nil, or_false, mid]
    omega
  · omega

theorem exists_real_greatest : ∀ k ∈ [1, 2, 3], ∀ negative,
    (written (withSign negative (2047 * pow2 52 - k))).real?.isSome = true := by
  decide +kernel

/-- A finite number comes back as some number. -/
theorem exists_value_written (finite : x.isFinite = true) : ∃ y, (written x).value? = some (.real y) := by
  have real : ∃ y, (written x).real? = some y := by
    by_cases readable : (written x).magnitude < readable
    · exact NumberText.exists_real readable (counted_written readable)
    · obtain ⟨k, member, unsigned⟩ := greatest_of_readable_le finite ((not_lt.mp readable).trans (magnitude_written x))
      have read := exists_real_greatest k member x.isNegative
      rw [← unsigned, withSign_self] at read
      exact Option.isSome_iff_exists.mp read
  obtain ⟨y, real⟩ := real
  exact ⟨y, by rw [value?_written, real, Option.map_some]⟩

end LiveTable.Json
