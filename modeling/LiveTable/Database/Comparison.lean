import LiveTable.Database.Affinity
import LiveTable.Predicate

/-!
# Comparing values

Values are ordered by kind: null, numbers, texts, bytes. Numbers are ordered by value, whatever
their kind, texts by code point and bytes one by one. A test of a column is true, false or unknown;
it is unknown where null takes part.
-/

namespace LiveTable.Database

/-- The rank of a kind of value. -/
def kindRank : Value → Nat
  | .null => 0
  | .integer _ | .real _ => 1
  | .text _ => 2
  | .blob _ => 3

/-- The order of rows of bytes. -/
def compareBytes : List UInt8 → List UInt8 → Ordering
  | [], [] => .eq
  | [], _ :: _ => .lt
  | _ :: _, [] => .gt
  | a :: rest, b :: others =>
    if a < b then .lt else if b < a then .gt else compareBytes rest others

/-- The order of characters, one by one. -/
def compareChars : List Char → List Char → Ordering
  | [], [] => .eq
  | [], _ :: _ => .lt
  | _ :: _, [] => .gt
  | a :: rest, b :: others =>
    if a < b then .lt else if b < a then .gt else compareChars rest others

/-- The order of values. -/
def compareValues : Value → Value → Ordering
  | .integer a, .integer b => compare a.toInt b.toInt
  | .integer a, .real x => Binary64.compareInt a.toInt x
  | .real x, .integer b => (Binary64.compareInt b.toInt x).swap
  | .real x, .real y => compare x.rank y.rank
  | .text s, .text t => compareChars s.toList t.toList
  | .blob a, .blob b => compareBytes a b
  | a, b => compare (kindRank a) (kindRank b)

/-! ## Patterns -/

/-- What can be left of a text after some of its first characters. -/
def suffixes : List Nat → List (List Nat)
  | [] => [[]]
  | c :: rest => (c :: rest) :: suffixes rest

/-- The code of a character with ASCII capital letters made small. -/
def lowerCode (n : Nat) : Nat := if 65 ≤ n ∧ n ≤ 90 then n + 32 else n

/-- A text matches a pattern, both as codes of characters: the percent sign stands for any
characters, the underscore for one, and the case of ASCII letters does not matter. -/
def matchesPattern : List Nat → List Nat → Bool
  | [], text => text.isEmpty
  | p :: pattern, text =>
    if p = 37 then (suffixes text).any (matchesPattern pattern)
    else
      match text with
      | [] => false
      | c :: text => (p = 95 || lowerCode p = lowerCode c) && matchesPattern pattern text

/-- A code that patterns see: the replacement character in place of those that are no characters
and of those that were written with too many bytes. -/
def settledCode (n : Nat) : Nat :=
  if n < 0x80 || (0xd800 ≤ n && n ≤ 0xdfff) || n = 0xfffe || n = 0xffff then 0xfffd else n

/-- The bits of a first byte that belong to the code of its character. -/
def leadBits (b : Nat) : Nat :=
  if b < 0xe0 then b - 0xc0 else if b < 0xf0 then b - 0xe0 else if b < 0xf8 then b - 0xf0
  else if b < 0xfc then b - 0xf8 else if b < 0xfe then b - 0xfc else 0

/-- The codes of bytes, given the code of the character that is being read: a byte from `0xc0` on
begins a character, bytes from `0x80` on continue it, and every other byte is a character. -/
def codesFrom (begun : Option Nat) : List UInt8 → List Nat
  | [] => (begun.map settledCode).toList
  | byte :: rest =>
    let b := byte.toNat
    match begun with
    | some n =>
      if 0x80 ≤ b && b < 0xc0 then codesFrom (some ((64 * n + b % 64) % pow2 32)) rest
      else if 0xc0 ≤ b then settledCode n :: codesFrom (some (leadBits b)) rest
      else settledCode n :: b :: codesFrom none rest
    | none => if 0xc0 ≤ b then codesFrom (some (leadBits b)) rest else b :: codesFrom none rest

/-- The codes that a pattern sees of a value: those of its text up to the first NUL. -/
def patternCodes (v : Value) : List Nat :=
  let codes : List Nat := match toText v with
    | .text s => s.toList.map fun (c : Char) => if c.toNat < 0x80 then c.toNat else settledCode c.toNat
    | .blob bytes => codesFrom none bytes
    | _ => []
  codes.takeWhile (· ≠ 0)

/-- A value matches a pattern; unknown for null. -/
def like (v pattern : Value) : Option Bool :=
  if v.isNull || pattern.isNull then none
  else some (matchesPattern (patternCodes pattern) (patternCodes v))

/-! ## Tests -/

/-- The order of two values; unknown for null. -/
def compareKnown (a b : Value) : Option Ordering :=
  if a.isNull || b.isNull then none else some (compareValues a b)

/-- A test of one operand. -/
def testCompare (affinity : Affinity) (op : CompareOp) (v operand : Value) : Option Bool :=
  let order := compareKnown v (affinity.operand operand)
  match op with
  | .eq => order.map (· == .eq)
  | .ne => order.map (· != .eq)
  | .gt => order.map (· == .gt)
  | .lt => order.map (· == .lt)
  | .ge => order.map (· != .lt)
  | .le => order.map (· != .gt)
  | .like => like v operand

/-- Membership in a list: false in the empty list, true if an element is equal, and unknown if none
is but null takes part. -/
def testIn (affinity : Affinity) (v : Value) (operands : List Value) : Option Bool :=
  if operands.isEmpty then some false
  else
    let found := operands.map fun operand => testCompare affinity .eq v operand
    if found.contains (some true) then some true
    else if found.contains none then none
    else some false

/-- A test of a column. -/
def test (affinity : Affinity) (op : TestOp) (v : Value) (operands : List Value) : Option Bool :=
  match op with
  | .compare op => testCompare affinity op v (operands.head?.getD .null)
  | .member .isIn _ => testIn affinity v operands
  | .member .notIn _ => (testIn affinity v operands).map (!·)

end LiveTable.Database
