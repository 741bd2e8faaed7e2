/-!
# Numerals

Numbers written with the digits of a base. Letters of either case stand for the digits above nine,
and there is no numeral without digits.
-/

namespace LiveTable.Text

/-- The value of a digit. -/
def digit? (c : Char) : Option Nat :=
  let n := c.toNat
  if 48 ≤ n ∧ n ≤ 57 then some (n - 48)
  else if 97 ≤ n ∧ n ≤ 122 then some (n - 87)
  else if 65 ≤ n ∧ n ≤ 90 then some (n - 55)
  else none

/-- The value of a digit in a base. -/
def digitIn? (base : Nat) (c : Char) : Option Nat := (digit? c).filter (· < base)

/-- The number that digits stand for, given the number that the digits before them stand for. -/
def numeralFrom (base value : Nat) : List Char → Option Nat
  | [] => some value
  | c :: rest => do numeralFrom base (base * value + (← digitIn? base c)) rest

/-- The number that a row of digits stands for. -/
def numeral? (base : Nat) (cs : List Char) : Option Nat :=
  if cs.isEmpty then none else numeralFrom base 0 cs

end LiveTable.Text
