import LiveTable.Binary64

/-!
# The shortest decimal digits of a number

Among the decimals that round to a given finite number, those with the fewest digits, and of these
the nearest to the number. The decimals that round to it fill an interval around it that reaches
half-way to each neighbour, the two ends included iff the mantissa is even. Below a power of two
the neighbours are twice as close, so the interval is shorter on that side.
-/

namespace LiveTable.Binary64

/-- A positive decimal `digits * pow10 exponent`. -/
structure Decimal where
  digits : Nat
  exponent : Int
  deriving DecidableEq, Inhabited

/-- Which of two equally near decimals is taken. -/
inductive Tie
  | toEven
  | away
  deriving DecidableEq

/-- The decimals that round to a number, as ratios over one denominator. -/
structure Interval where
  low : Nat
  value : Nat
  high : Nat
  den : Nat
  closed : Bool

/-- The interval of the decimals that round to a positive finite number. -/
def interval (x : Binary64) : Interval :=
  let m := x.mantissa
  let gapBelow := if m = pow2 52 ∧ 1 < x.exponentField then 1 else 2
  let quarters : Int := x.scale - 2
  let up := pow2 quarters.toNat
  { low := (4 * m - gapBelow) * up
    value := 4 * m * up
    high := (4 * m + 2) * up
    den := pow2 (-quarters).toNat
    closed := m % 2 = 0 }

/-- The exponents of ten that can be the number of digits before the point of `num / den`, from
the estimate that its binary size gives. -/
def exponentCandidates (num den : Nat) : List Int :=
  let start := ((num.log2 : Int) - den.log2) * 30103 / 100000
  [start - 1, start, start + 1, start + 2]

/-- `num / den < pow10 k`. -/
def belowPower (num den : Nat) (k : Int) : Bool :=
  if 0 ≤ k then num < den * pow10 k.toNat else num * pow10 (-k).toNat < den

/-- The least `k` with `num / den < pow10 k`. -/
def leadingExponent (num den : Nat) : Int :=
  ((exponentCandidates num den).find? (belowPower num den)).getD 0

/-- The decimal of the grid of step `pow10 e` that is in the interval and nearest to the value. -/
def nearestOnGrid (tie : Tie) (i : Interval) (e : Int) : Option Decimal :=
  let up := pow10 (-e).toNat
  let step := i.den * pow10 e.toNat
  let inside (d : Nat) : Bool :=
    let scaled := d * step
    if i.closed then i.low * up ≤ scaled && scaled ≤ i.high * up
    else i.low * up < scaled && scaled < i.high * up
  let floor := i.value * up / step
  let rest := i.value * up % step
  if rest = 0 then (if inside floor then some ⟨floor, e⟩ else none)
  else
    match inside floor, inside (floor + 1) with
    | false, false => none
    | true, false => some ⟨floor, e⟩
    | false, true => some ⟨floor + 1, e⟩
    | true, true =>
      if 2 * rest < step then some ⟨floor, e⟩
      else if step < 2 * rest then some ⟨floor + 1, e⟩
      else match tie with
        | .toEven => some ⟨floor + floor % 2, e⟩
        | .away => some ⟨floor + 1, e⟩

/-- The shortest decimal that reads back as a positive finite number: the coarsest grid with a
point in the interval. Seventeen digits always have one. -/
def shortest (tie : Tie) (x : Binary64) : Decimal :=
  let i := x.interval
  let k := leadingExponent i.value i.den
  ((List.range 17).findSome? fun (n : Nat) => nearestOnGrid tie i (k - n - 1)).getD ⟨0, 0⟩

/-- A positive finite number rounded to `count` significant digits, a tie away from zero. -/
def rounded (count : Nat) (x : Binary64) : Decimal :=
  let i := x.interval
  let e := leadingExponent i.value i.den - count
  let num := i.value * pow10 (-e).toNat
  let den := i.den * pow10 e.toNat
  ⟨(2 * num + den) / (2 * den), e⟩

end LiveTable.Binary64
