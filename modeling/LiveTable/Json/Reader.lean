import LiveTable.Json.Number
import LiveTable.Ordered

/-!
# Reading JSON texts

A text is read in two passes. The first walks over the characters and cuts the text into tokens,
the second walks over the tokens with a stack of the arrays and objects that are still open. Both
are folds, so both end. A name that occurs twice in an object keeps its first place and takes its
last value, and at most 127 arrays and objects may be open at once.
-/

namespace LiveTable.Json

/-! ## Tokens -/

/-- A piece of a JSON text. -/
inductive Token
  | openArray
  | closeArray
  | openObject
  | closeObject
  | comma
  | colon
  | string (s : String)
  /-- A number, a truth value or null. -/
  | scalar (j : Json)

/-- Where the first pass stands; characters are collected in reverse. -/
inductive Scan
  | between
  | word (seen : List Char)
  | number (seen : List Char)
  | quoted (seen : List Char)
  | backslash (seen : List Char)
  /-- Inside an escape by code: the first half of a pair, if one went before, the digits still due
  and the value so far. -/
  | code (seen : List Char) (high : Option Nat) (due : Nat) (value : Nat)
  /-- After the first half of a pair; the backslash of the second half is due. -/
  | halfway (seen : List Char) (high : Nat)
  /-- After the first half of a pair and a backslash. -/
  | halfwayBackslash (seen : List Char) (high : Nat)

/-- Space between tokens. -/
def isSpace (c : Char) : Bool := c = ' ' || c = '\t' || c = '\n' || c = '\r'

/-- A character that can stand in a number. -/
def isNumberChar (c : Char) : Bool :=
  c.isDigit || c = '-' || c = '+' || c = '.' || c = 'e' || c = 'E'

/-- The value of a hexadecimal digit. -/
def hexValue? (c : Char) : Option Nat :=
  if c.isDigit then some (c.toNat - 48)
  else if 'a' ≤ c ∧ c ≤ 'f' then some (c.toNat - 87)
  else if 'A' ≤ c ∧ c ≤ 'F' then some (c.toNat - 55)
  else none

/-- What begins with a character between two tokens. -/
def start (c : Char) : Option (List Token × Scan) :=
  if isSpace c then some ([], .between)
  else if c = '[' then some ([.openArray], .between)
  else if c = ']' then some ([.closeArray], .between)
  else if c = '\x7b' then some ([.openObject], .between)
  else if c = '\x7d' then some ([.closeObject], .between)
  else if c = ',' then some ([.comma], .between)
  else if c = ':' then some ([.colon], .between)
  else if c = '"' then some ([], .quoted [])
  else if c.isDigit || c = '-' then some ([], .number [c])
  else if c.isAlpha then some ([], .word [c])
  else none

/-- The token of a word. -/
def wordToken (seen : List Char) : Option Token :=
  match String.ofList seen.reverse with
  | "null" => some (.scalar .null)
  | "true" => some (.scalar (.bool true))
  | "false" => some (.scalar (.bool false))
  | _ => none

/-- The token of a number. -/
def numberToken (seen : List Char) : Option Token := do
  let value ← (← NumberText.ofChars? seen.reverse).value?
  some (.scalar value)

/-- A code that is complete, after the first half of a pair or not. -/
def afterCode (seen : List Char) (high : Option Nat) (value : Nat) : Option Scan :=
  let isHigh := 0xd800 ≤ value ∧ value < 0xdc00
  let isLow := 0xdc00 ≤ value ∧ value < 0xe000
  match high with
  | none =>
    if isHigh then some (.halfway seen value)
    else if isLow then none
    else some (.quoted (Char.ofNat value :: seen))
  | some first =>
    if isLow then
      some (.quoted (Char.ofNat (0x10000 + (first - 0xd800) * 0x400 + (value - 0xdc00)) :: seen))
    else none

/-- The character that a short escape stands for. -/
def shortEscape (c : Char) : Option Char :=
  match c with
  | '"' => some '"'
  | '\\' => some '\\'
  | '/' => some '/'
  | 'b' => some '\x08'
  | 'f' => some '\x0c'
  | 'n' => some '\n'
  | 'r' => some '\r'
  | 't' => some '\t'
  | _ => none

/-- One character of the first pass: the tokens that it completes, and where the pass then
stands. -/
def scan : Scan → Char → Option (List Token × Scan)
  | .between, c => start c
  | .word seen, c =>
    if c.isAlphanum then some ([], .word (c :: seen))
    else do
      let token ← wordToken seen
      let (tokens, next) ← start c
      some (token :: tokens, next)
  | .number seen, c =>
    if isNumberChar c then some ([], .number (c :: seen))
    else do
      let token ← numberToken seen
      let (tokens, next) ← start c
      some (token :: tokens, next)
  | .quoted seen, c =>
    if c = '"' then some ([.string (String.ofList seen.reverse)], .between)
    else if c = '\\' then some ([], .backslash seen)
    else if c.toNat < 32 then none
    else some ([], .quoted (c :: seen))
  | .backslash seen, c =>
    if c = 'u' then some ([], .code seen none 4 0)
    else do some ([], .quoted ((← shortEscape c) :: seen))
  | .code seen high due value, c => do
    let value := 16 * value + (← hexValue? c)
    if due ≤ 1 then some ([], ← afterCode seen high value)
    else some ([], .code seen high (due - 1) value)
  | .halfway seen high, c => if c = '\\' then some ([], .halfwayBackslash seen high) else none
  | .halfwayBackslash seen high, c =>
    if c = 'u' then some ([], .code seen (some high) 4 0) else none

/-- The tokens that the end of the text completes. -/
def scanEnd : Scan → Option (List Token)
  | .between => some []
  | .word seen => (wordToken seen).map ([·])
  | .number seen => (numberToken seen).map ([·])
  | _ => none

/-- The tokens of a text, from where the first pass stands. -/
def tokensFrom (state : Scan) : List Char → Option (List Token)
  | [] => scanEnd state
  | c :: rest => do
    let (tokens, next) ← scan state c
    some (tokens ++ (← tokensFrom next rest))

/-! ## Documents -/

/-- An array or object that is still open. -/
inductive Container
  /-- The items so far, in reverse. -/
  | array (items : List Json)
  /-- The members so far, and the name whose value is due. -/
  | object (members : List (String × Json)) (name : String)

/-- Where the second pass stands. -/
inductive Reading
  /-- A value is due. -/
  | value (stack : List Container)
  /-- Right after the opening bracket of an array. -/
  | firstItem (stack : List Container)
  /-- Right after the opening brace of an object. -/
  | firstName (stack : List Container)
  /-- After a comma in an object. -/
  | name (members : List (String × Json)) (stack : List Container)
  /-- After a name. -/
  | colon (members : List (String × Json)) (name : String) (stack : List Container)
  /-- After a complete value. -/
  | after (value : Json) (stack : List Container)

/-- The greatest number of arrays and objects that may be open at once. -/
def maxDepth : Nat := 127

/-- A token where a value is due. -/
def readValue (stack : List Container) : Token → Option Reading
  | .scalar j => some (.after j stack)
  | .string s => some (.after (.string s) stack)
  | .openArray => if stack.length < maxDepth then some (.firstItem stack) else none
  | .openObject => if stack.length < maxDepth then some (.firstName stack) else none
  | _ => none

/-- One token of the second pass. -/
def readToken : Reading → Token → Option Reading
  | .value stack, t => readValue stack t
  | .firstItem stack, .closeArray => some (.after (.array []) stack)
  | .firstItem stack, t => readValue (.array [] :: stack) t
  | .firstName stack, .closeObject => some (.after (.object []) stack)
  | .firstName stack, .string s => some (.colon [] s stack)
  | .name members stack, .string s => some (.colon members s stack)
  | .colon members name stack, .colon => some (.value (.object members name :: stack))
  | .after v (.array items :: stack), .comma => some (.value (.array (v :: items) :: stack))
  | .after v (.array items :: stack), .closeArray =>
    some (.after (.array (v :: items).reverse) stack)
  | .after v (.object members name :: stack), .comma =>
    some (.name (Ordered.place name v members) stack)
  | .after v (.object members name :: stack), .closeObject =>
    some (.after (.object (Ordered.place name v members)) stack)
  | _, _ => none

/-- The document that a text holds, or none if the text is not JSON. -/
def read? (text : String) : Option Json := do
  let tokens ← tokensFrom .between text.toList
  match ← tokens.foldlM readToken (.value []) with
  | .after v [] => some v
  | _ => none

end LiveTable.Json
