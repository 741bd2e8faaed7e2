import LiveTable.Column
import LiveTable.Value

/-!
# Column affinity

A column prefers one kind of value. A value that is stored is converted to that kind if nothing is
lost; an operand that is compared with a column is converted as well. A text is taken for a number
iff all of it is a decimal number, but for space around it.
-/

namespace LiveTable.Database

/-- The kind of value that a column prefers. -/
inductive Affinity
  | integer
  | real
  | text
  /-- No preference. -/
  | none
  deriving DecidableEq, Inhabited

/-- The affinity of a declared type. -/
def Affinity.ofType : ColumnType → Affinity
  | .text => .text
  | .integer => .integer
  | .real => .real
  | .blob => .none

/-- Numbers as the storage writes them: fifteen significant digits, positional notation for decimal
exponents from `-4` to `14`, always with a point, and exponents of at least two digits. -/
def numberLayout : Binary64.Layout where
  positionalFrom := some (-4)
  exponentFrom := some 15
  integralMark := ".0"
  soleDigitMark := ".0"
  plus := true
  exponentWidth := 2
  decimal := Binary64.rounded 15
  infinity := "Inf"
  notNumber := "NaN"
  signedZero := false

/-! ## Numbers in texts -/

/-- Space around a number. -/
def isNumberSpace (c : Char) : Bool := c = ' ' || (9 ≤ c.toNat && c.toNat ≤ 13)

/-- The value of a row of decimal digits. -/
def decimalValue (digits : List Char) : Nat :=
  digits.foldl (fun n c => 10 * n + (c.toNat - 48)) 0

/-- The exponent that a text without space states: nothing, or a mark and a signed row of digits. -/
def readExponent? : List Char → Option Int
  | [] => some 0
  | mark :: rest =>
    if mark = 'e' ∨ mark = 'E' then
      let (negative, digits) := match rest with
        | '-' :: digits => (true, digits)
        | '+' :: digits => (false, digits)
        | digits => (false, digits)
      if digits.isEmpty || !digits.all Char.isDigit then none
      else
        let e : Int := decimalValue digits
        some (if negative then -e else e)
    else none

/-- A number with no space around it: an integer if it is a row of digits that sixty-four bits
hold, and a real number otherwise. -/
def readUnsigned? (negative : Bool) (cs : List Char) : Option Value :=
  let (whole, rest) := cs.span Char.isDigit
  let (pointed, fraction, rest) := match rest with
    | '.' :: rest =>
      let (fraction, rest) := rest.span Char.isDigit
      (true, fraction, rest)
    | rest => (false, [], rest)
  if whole.isEmpty && fraction.isEmpty then none
  else
    let n := decimalValue whole
    let signed : Int := if negative then -n else n
    let bound : Int := pow2 63
    if !pointed && rest.isEmpty && -bound ≤ signed && signed < bound then
      some (.integer (Int64.ofInt signed))
    else do
      let e ← readExponent? rest
      let digits := decimalValue (whole ++ fraction)
      some (.real (.ofDecimal negative digits (e - fraction.length)))

/-- The number that a text is, if all of it is a number. -/
def readNumber? (s : String) : Option Value :=
  let cs := s.toList.dropWhile isNumberSpace
  let cs := (cs.reverse.dropWhile isNumberSpace).reverse
  match cs with
  | '-' :: rest => readUnsigned? true rest
  | '+' :: rest => readUnsigned? false rest
  | rest => readUnsigned? false rest

/-! ## Conversions -/

/-- A real number that is an integer, strictly between the least and the greatest integer of
sixty-four bits, as that integer. -/
def integral? (x : Binary64) : Option Int64 :=
  match x.toInt? with
  | some n =>
    let bound : Int := pow2 63
    if -bound < n ∧ n < bound - 1 then some (Int64.ofInt n) else none
  | none => none

/-- A text that is a number becomes that number; other values stay. -/
def toNumber : Value → Value
  | .text s => (readNumber? s).getD (.text s)
  | v => v

/-- A number becomes its text; other values stay. -/
def toText : Value → Value
  | .integer n => .text (toString n.toInt)
  | .real x => .text (numberLayout.write x)
  | v => v

/-- A real number that is an integer becomes that integer; other values stay. -/
def toInteger : Value → Value
  | .real x => match integral? x with
    | some n => .integer n
    | none => .real x
  | v => v

/-- An integer becomes a real number, and the zeros become one; other values stay. -/
def toReal : Value → Value
  | .integer n => .real (.ofInt n.toInt)
  | .real x => .real (if x.isZero then .zero false else x)
  | v => v

/-- A value as a column stores it. -/
def Affinity.store : Affinity → Value → Value
  | .integer, v => toInteger (toNumber v)
  | .real, v => toReal (toNumber v)
  | .text, v => toText v
  | .none, v => v

/-- An operand as a column is compared with it. -/
def Affinity.operand : Affinity → Value → Value
  | .integer, v | .real, v => toNumber v
  | .text, v => toText v
  | .none, v => v

/-- A value behind a placeholder: there is no not-a-number, it is null. -/
def bind : Value → Value
  | .real x => if x.isNaN then .null else .real x
  | v => v

end LiveTable.Database
