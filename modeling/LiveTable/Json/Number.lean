import LiveTable.Json

/-!
# Numbers in JSON texts

The grammar of a number, and its value. The digits of a number that is not an integer of sixty-four
bits are read into a sixty-four bit significand; digits that no longer fit only move the point, or
are dropped behind it. The significand is rounded to a floating-point number first and then scaled
by a rounded power of ten, which is a second rounding.
-/

namespace LiveTable.Json

/-- The parts of a number as it is written. -/
structure NumberText where
  negative : Bool
  whole : List Char
  /-- The digits after the point, if there is a point. -/
  fraction : Option (List Char)
  /-- The sign and digits of the exponent, if there is one. -/
  exponent : Option (Bool × List Char)

/-- The value of a decimal digit. -/
def digitValue (c : Char) : Nat := c.toNat - 48

/-- The value of a row of digits. -/
def digitsValue (digits : List Char) : Nat := digits.foldl (fun n c => 10 * n + digitValue c) 0

namespace NumberText

/-- A part that is a row of at least one digit. -/
def digits? (cs : List Char) : Option (List Char × List Char) :=
  match cs.span Char.isDigit with
  | ([], _) => none
  | found => some found

/-- The sign and the digits of an exponent, after its mark, to the end of the text. -/
def exponent? (cs : List Char) : Option (Bool × List Char) := do
  let (negative, rest) := match cs with
    | '+' :: rest => (false, rest)
    | '-' :: rest => (true, rest)
    | rest => (false, rest)
  match ← digits? rest with
  | (found, []) => some (negative, found)
  | _ => none

/-- What follows the digits in front of the point. -/
def ofWhole (negative : Bool) (whole : List Char) : List Char → Option NumberText
  | [] => some ⟨negative, whole, none, none⟩
  | '.' :: rest => do
    match ← digits? rest with
    | (fraction, []) => some ⟨negative, whole, some fraction, none⟩
    | (fraction, mark :: rest) =>
      if mark = 'e' ∨ mark = 'E' then
        some ⟨negative, whole, some fraction, some (← exponent? rest)⟩
      else none
  | mark :: rest =>
    if mark = 'e' ∨ mark = 'E' then do
      some ⟨negative, whole, none, some (← exponent? rest)⟩
    else none

/-- A number as it is written: no plus sign, no zero in front of other digits, digits on both sides
of a point. -/
def ofChars? (cs : List Char) : Option NumberText := do
  let (negative, rest) := match cs with
    | '-' :: rest => (true, rest)
    | rest => (false, rest)
  match ← digits? rest with
  | ('0' :: _ :: _, _) => none
  | (whole, rest) => ofWhole negative whole rest

end NumberText

/-- Digits joined to a significand while sixty-four bits hold it, and the digits left over. -/
def absorb (significand : Nat) : List Char → Nat × List Char
  | [] => (significand, [])
  | c :: rest =>
    let next := 10 * significand + digitValue c
    if next < pow2 64 then absorb next rest else (significand, c :: rest)

/-- A power of ten, rounded. -/
def powerOfTen (e : Nat) : Binary64 := .ofDecimal false 1 e

/-- A significand scaled by a power of ten; none beyond the greatest finite number. Powers below the
table of 308 take two divisions, and below twice that nothing is left. -/
def scaled (significand : Nat) (e : Int) : Option Binary64 :=
  let f := Binary64.ofInt significand
  if significand = 0 then some (.zero false)
  else if 308 < e then none
  else if 0 ≤ e then
    let product := f.mul (powerOfTen e.toNat)
    if product.isFinite then some product else none
  else if -308 ≤ e then some (f.div (powerOfTen (-e).toNat))
  else if -616 ≤ e then
    some ((f.div (powerOfTen 308)).div (powerOfTen (-e - 308).toNat))
  else some (.zero false)

/-- The greatest exponent that is counted. -/
def exponentLimit : Nat := pow2 31 - 1

/-- The value of a number that is not an integer of sixty-four bits. -/
def NumberText.real? (t : NumberText) : Option Binary64 := do
  let (significand, beyond) := absorb 0 t.whole
  let (significand, shift) : Nat × Int := match t.fraction with
    | none => (significand, beyond.length)
    | some fraction =>
      let (joined, dropped) := absorb significand fraction
      (joined, (beyond.length : Int) - (fraction.length - dropped.length : Nat))
  let magnitude ← match t.exponent with
    | none => scaled significand shift
    | some (down, digits) =>
      let e := digitsValue digits
      if exponentLimit < e then
        if significand ≠ 0 ∧ down = false then none else some (.zero false)
      else
        let e : Int := if down then shift - e else shift + e
        scaled significand (max (-(exponentLimit : Int) - 1) (min exponentLimit e))
  some (if t.negative then magnitude.neg else magnitude)

/-- The value of a number: an integer if it is written as one and sixty-four bits hold it. The
negative zero is no integer. -/
def NumberText.value? (t : NumberText) : Option Json :=
  let n := digitsValue t.whole
  match t.fraction, t.exponent with
  | none, none =>
    if t.negative then
      if n ≠ 0 ∧ n ≤ pow2 63 then some (.integer (-(n : Int))) else t.real?.map .real
    else if n < pow2 64 then some (.integer n) else t.real?.map .real
  | _, _ => t.real?.map .real

end LiveTable.Json
