import LiveTable.Binary64.Layout

/-!
# JSON documents

The tree of a JSON document, and its compact text. Members of an object keep their order. A number
written without a point or an exponent is an integer if sixty-four bits hold it, and a
floating-point number otherwise.
-/

namespace LiveTable

/-- A JSON document. An integer is at least `-2 ^ 63` and less than `2 ^ 64`. -/
inductive Json
  | null
  | bool (b : Bool)
  | integer (n : Int)
  | real (x : Binary64)
  | string (s : String)
  | array (items : List Json)
  | object (members : List (String × Json))
  deriving Inhabited

namespace Json

/-- Numbers in JSON texts: shortest digits, positional notation for decimal exponents from `-5` to
`15`, a point in every positional number and a sign in every exponent. -/
def numberLayout : Binary64.Layout where
  positionalFrom := some (-5)
  exponentFrom := some 16
  integralMark := ".0"
  soleDigitMark := ""
  plus := true
  exponentWidth := 1
  decimal := Binary64.shortest .toEven
  infinity := "null"
  notNumber := "null"
  signedZero := true

/-- The text of a number; what is not finite has none and is written as null. -/
def writeReal (x : Binary64) : String := if x.isFinite then numberLayout.write x else "null"

/-- The lower-case hexadecimal digit of a number below sixteen. -/
def hexDigit (n : Nat) : Char := if n < 10 then Char.ofNat (48 + n) else Char.ofNat (87 + n)

/-- A character inside quotes: the quote, the backslash and the controls are escaped. -/
def escape (c : Char) : List Char :=
  if c = '"' then ['\\', '"']
  else if c = '\\' then ['\\', '\\']
  else if c = '\n' then ['\\', 'n']
  else if c = '\r' then ['\\', 'r']
  else if c = '\t' then ['\\', 't']
  else if c = '\x08' then ['\\', 'b']
  else if c = '\x0c' then ['\\', 'f']
  else if c.toNat < 32 then ['\\', 'u', '0', '0', hexDigit (c.toNat / 16), hexDigit (c.toNat % 16)]
  else [c]

/-- A text in quotes. -/
def quote (s : String) : String :=
  String.ofList ('"' :: (s.toList.flatMap escape ++ ['"']))

mutual

/-- The compact text of a document. -/
def write : Json → String
  | .null => "null"
  | .bool b => if b then "true" else "false"
  | .integer n => toString n
  | .real x => writeReal x
  | .string s => quote s
  | .array items => "[" ++ ",".intercalate (writeItems items) ++ "]"
  | .object members => "\x7b" ++ ",".intercalate (writeMembers members) ++ "\x7d"

/-- The texts of the items of an array. -/
def writeItems : List Json → List String
  | [] => []
  | item :: rest => write item :: writeItems rest

/-- The texts of the members of an object. -/
def writeMembers : List (String × Json) → List String
  | [] => []
  | (name, item) :: rest => (quote name ++ ":" ++ write item) :: writeMembers rest

end

/-- A number as a floating-point number. -/
def asReal? : Json → Option Binary64
  | .integer n => some (.ofInt n)
  | .real x => some x
  | _ => none

/-- The member of a name. -/
def member? (name : String) : Json → Option Json
  | .object members => (members.find? (·.1 = name)).map Prod.snd
  | _ => none

end Json

end LiveTable
