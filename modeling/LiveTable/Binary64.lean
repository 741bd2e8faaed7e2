import LiveTable.Power

/-!
# Binary floating-point numbers

A 64-bit floating-point number is its word of bits. Everything here is exact arithmetic on
natural numbers and integers: reading the word as a mantissa and a power of two, rounding a ratio
of natural numbers to the nearest word (ties to the even mantissa), comparing, multiplying and
dividing. There is one not-a-number, so equality of words is equality of numbers but for the two
zeros.
-/

namespace LiveTable

/-- A 64-bit floating-point number, held as its bits. -/
structure Binary64 where
  bits : UInt64
  deriving DecidableEq, Inhabited

namespace Binary64

/-- The one not-a-number. -/
def nan : Binary64 := ⟨0x7ff8000000000000⟩

/-- The sign bit is set. -/
def isNegative (x : Binary64) : Bool := x.bits.toNat / pow2 63 = 1

/-- The word without its sign bit; it grows with the distance from zero. -/
def unsigned (x : Binary64) : Nat := x.bits.toNat % pow2 63

/-- The eleven bits of the exponent. -/
def exponentField (x : Binary64) : Nat := x.unsigned / pow2 52

/-- The fifty-two stored bits of the mantissa. -/
def fraction (x : Binary64) : Nat := x.unsigned % pow2 52

/-- Neither a number nor an infinity. -/
def isNaN (x : Binary64) : Bool := x.exponentField = 2047 && x.fraction ≠ 0

/-- One of the two infinities. -/
def isInfinite (x : Binary64) : Bool := x.exponentField = 2047 && x.fraction = 0

/-- A number with a finite value. -/
def isFinite (x : Binary64) : Bool := x.exponentField ≠ 2047

/-- One of the two zeros. -/
def isZero (x : Binary64) : Bool := x.unsigned = 0

/-- The number with these bits; every not-a-number is read as the one that is kept. -/
def ofBits (bits : UInt64) : Binary64 := if (Binary64.mk bits).isNaN then nan else ⟨bits⟩

/-- The word with a sign in front of an unsigned word. -/
def withSign (negative : Bool) (unsigned : Nat) : Binary64 :=
  ⟨(unsigned + if negative then pow2 63 else 0).toUInt64⟩

/-- Zero with a sign. -/
def zero (negative : Bool) : Binary64 := withSign negative 0

/-- Infinity with a sign. -/
def infinity (negative : Bool) : Binary64 := withSign negative (2047 * pow2 52)

/-- The integer mantissa of a finite number: its distance from zero is `mantissa * pow2 scale`. -/
def mantissa (x : Binary64) : Nat :=
  if x.exponentField = 0 then x.fraction else pow2 52 + x.fraction

/-- The power of two that the mantissa counts. -/
def scale (x : Binary64) : Int :=
  if x.exponentField = 0 then -1074 else (x.exponentField : Int) - 1075

/-! ## Rounding -/

/-- The quotient of two natural numbers to the nearest natural number, a tie to the even one. -/
def roundDiv (num den : Nat) : Nat :=
  let quotient := num / den
  let rest := num % den
  if 2 * rest < den then quotient
  else if den < 2 * rest then quotient + 1
  else quotient + quotient % 2

/-- `num / (den * pow2 q)` as a ratio of natural numbers. -/
def unscale (num den : Nat) (q : Int) : Nat × Nat :=
  if 0 ≤ q then (num, den * pow2 q.toNat) else (num * pow2 (-q).toNat, den)

/-- The nearest number to `num / den`, a tie to the even mantissa. The mantissa gets fifty-three
bits unless the power of two would fall below the least one; a carry out of the mantissa moves into
the exponent field by itself, and what lies beyond the greatest number is infinity. -/
def ofRatio (negative : Bool) (num den : Nat) : Binary64 :=
  if num = 0 then zero negative
  else
    let guess : Int := (num.log2 : Int) - den.log2 - 52
    let (a, b) := unscale num den guess
    let q := max (if a / b < pow2 52 then guess - 1 else guess) (-1074)
    let (a, b) := unscale num den q
    let word := (q + 1074).toNat * pow2 52 + roundDiv a b
    withSign negative (min word (2047 * pow2 52))

/-- The nearest number to an integer. -/
def ofInt (n : Int) : Binary64 := ofRatio (decide (n < 0)) n.natAbs 1

/-- The nearest number to `digits * pow10 e`. -/
def ofDecimal (negative : Bool) (digits : Nat) (e : Int) : Binary64 :=
  if digits = 0 then zero negative
  else if 400 < e then infinity negative
  else if e + (digits.log2 + 1) < -400 then zero negative
  else if 0 ≤ e then ofRatio negative (digits * pow10 e.toNat) 1
  else ofRatio negative digits (pow10 (-e).toNat)

/-! ## Arithmetic on distances from zero -/

/-- `num / den * pow2 q`, rounded, with a sign. -/
def ofScaled (negative : Bool) (num den : Nat) (q : Int) : Binary64 :=
  if 0 ≤ q then ofRatio negative (num * pow2 q.toNat) den
  else ofRatio negative num (den * pow2 (-q).toNat)

/-- The rounded product of two finite numbers. -/
def mul (x y : Binary64) : Binary64 :=
  ofScaled (x.isNegative != y.isNegative) (x.mantissa * y.mantissa) 1 (x.scale + y.scale)

/-- The rounded quotient of two finite numbers, the second not zero. -/
def div (x y : Binary64) : Binary64 :=
  ofScaled (x.isNegative != y.isNegative) x.mantissa y.mantissa (x.scale - y.scale)

/-- The number with the other sign. -/
def neg (x : Binary64) : Binary64 :=
  if x.isNaN then x else withSign (!x.isNegative) x.unsigned

/-! ## Order -/

/-- An integer that orders all numbers but the not-a-number; the two zeros share it. -/
def rank (x : Binary64) : Int := if x.isNegative then -(x.unsigned : Int) else x.unsigned

/-- Equality of numbers: a not-a-number equals nothing and the two zeros are equal. -/
def numEq (x y : Binary64) : Bool := !x.isNaN && !y.isNaN && x.rank == y.rank

/-- A finite number that is an integer, as that integer. -/
def toInt? (x : Binary64) : Option Int :=
  if !x.isFinite then none
  else
    let magnitude : Option Nat :=
      if 0 ≤ x.scale then some (x.mantissa * pow2 x.scale.toNat)
      else
        let den := pow2 (-x.scale).toNat
        if x.mantissa % den = 0 then some (x.mantissa / den) else none
    magnitude.map fun m => if x.isNegative then -(m : Int) else m

/-- The exact order between an integer and a number other than the not-a-number. -/
def compareInt (n : Int) (x : Binary64) : Ordering :=
  if x.isInfinite then (if x.isNegative then .gt else .lt)
  else
    let signed : Int := if x.isNegative then -(x.mantissa : Int) else x.mantissa
    if 0 ≤ x.scale then compare n (signed * pow2 x.scale.toNat)
    else compare (n * pow2 (-x.scale).toNat) signed

end Binary64

end LiveTable
