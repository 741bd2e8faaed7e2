import LiveTable.Binary64.Shortest

/-!
# Writing a number

A layout is the set of decisions with which a program writes a floating-point number, given its
decimal digits: which decimal exponents are written with positional notation, what follows an
integral value, how an exponent is marked. The decimal exponent of a number is that of its first
digit.
-/

namespace LiveTable.Binary64

/-- The decisions of one way of writing numbers. -/
structure Layout where
  /-- The least decimal exponent written without an exponent mark; none has no limit. -/
  positionalFrom : Option Int
  /-- The least decimal exponent from above that is written with an exponent mark. -/
  exponentFrom : Option Int
  /-- What follows a number written positionally that has no digit after the point. -/
  integralMark : String
  /-- What follows a single digit in front of an exponent mark. -/
  soleDigitMark : String
  /-- A positive exponent has a plus sign. -/
  plus : Bool
  /-- The least number of digits of an exponent. -/
  exponentWidth : Nat
  /-- The digits of a number other than zero. -/
  decimal : Binary64 → Decimal
  /-- The text of positive infinity. -/
  infinity : String
  /-- The text of the not-a-number. -/
  notNumber : String
  /-- A negative zero keeps its sign. -/
  signedZero : Bool

/-- The decimal digits of a natural number. -/
def digitChars (n : Nat) : List Char := Nat.toDigits 10 n

/-- The digits without the zeros at the end; the exponent of the first digit stays the same. -/
def trimZeros (digits : List Char) : List Char := (digits.reverse.dropWhile (· == '0')).reverse

/-- `n` zeros. -/
def zeros (n : Nat) : List Char := List.replicate n '0'

namespace Layout

/-- Digits whose first one has decimal exponent `e`, with a point and no exponent mark. -/
def positional (layout : Layout) (digits : List Char) (e : Int) : List Char :=
  if e < 0 then '0' :: '.' :: (zeros (-e - 1).toNat ++ digits)
  else
    let whole := e.toNat + 1
    if digits.length ≤ whole then
      digits ++ zeros (whole - digits.length) ++ layout.integralMark.toList
    else digits.take whole ++ '.' :: digits.drop whole

/-- Digits with a point after the first one and an exponent mark. -/
def exponential (layout : Layout) (digits : List Char) (e : Int) : List Char :=
  let mantissa := match digits with
    | [d] => d :: layout.soleDigitMark.toList
    | d :: rest => d :: '.' :: rest
    | [] => []
  let sign := if e < 0 then ['-'] else if layout.plus then ['+'] else []
  let exponent := digitChars e.natAbs
  mantissa ++ 'e' :: sign ++ zeros (layout.exponentWidth - exponent.length) ++ exponent

/-- The text of a number. -/
def write (layout : Layout) (x : Binary64) : String :=
  if x.isNaN then layout.notNumber
  else
    let sign := if x.isNegative then ['-'] else []
    if x.isInfinite then String.ofList (sign ++ layout.infinity.toList)
    else if x.isZero then
      String.ofList ((if layout.signedZero then sign else []) ++ layout.positional ['0'] 0)
    else
      let d := layout.decimal (withSign false x.unsigned)
      let all := digitChars d.digits
      let e : Int := d.exponent + all.length - 1
      let digits := trimZeros all
      let low := match layout.positionalFrom with
        | some least => decide (least ≤ e)
        | none => true
      let high := match layout.exponentFrom with
        | some least => decide (e < least)
        | none => true
      String.ofList (sign ++
        if low && high then layout.positional digits e else layout.exponential digits e)

end Layout

/-- Plain notation: the shortest digits, never an exponent, nothing after an integral value. Of two
equally near decimals the greater is taken. -/
def plain : Layout where
  positionalFrom := none
  exponentFrom := none
  integralMark := ""
  soleDigitMark := ""
  plus := false
  exponentWidth := 1
  decimal := shortest .away
  infinity := "inf"
  notNumber := "NaN"
  signedZero := true

end LiveTable.Binary64
