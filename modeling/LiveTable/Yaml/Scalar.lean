import LiveTable.Text.Numeral
import LiveTable.Yaml.Place

/-!
# Scalars

A scalar is written plainly, in quotes, or as a block of indented lines. Where a scalar that is not
a block goes over several lines, a single line break between them is read as a space, and of
several breaks the first one is dropped.

A reader takes the characters one by one, with what it has read in reverse, and gives the text of
the scalar and what follows it.
-/

namespace LiveTable.Yaml

/-- How a scalar is written. -/
inductive Style
  | plain
  | singleQuoted
  | doubleQuoted
  | literal
  | folded
  deriving DecidableEq

/-! ## Gaps between lines -/

/-- Blanks and line breaks that were read after the last character of a scalar. -/
structure Gap where
  /-- Blanks before the first break, in reverse. -/
  blanks : List Char
  /-- There was a break. -/
  broken : Bool
  /-- The first break, unless it was escaped. -/
  first : Option Char
  /-- The breaks after the first, in reverse. -/
  more : List Char
  deriving DecidableEq

namespace Gap

/-- The gap between two characters of a word. -/
def none : Gap := ⟨[], false, .none, []⟩

/-- The gap behind an escaped line break. -/
def escaped : Gap := ⟨[], true, .none, []⟩

/-- There is no gap. -/
def isNone (g : Gap) : Bool := g.blanks.isEmpty && !g.broken

/-- The gap with one more blank or break. Blanks behind a break are dropped. -/
def add (g : Gap) (c : Char) : Gap :=
  if isBlank c then if g.broken then g else { g with blanks := c :: g.blanks }
  else if g.broken then { g with more := c :: g.more }
  else ⟨[], true, some c, []⟩

/-- The characters that a gap stands for, in reverse. -/
def chars (g : Gap) : List Char :=
  if !g.broken then g.blanks
  else if g.first = some '\n' then if g.more.isEmpty then [' '] else g.more
  else g.more ++ g.first.toList

end Gap

/-! ## Plain scalars -/

/-- Characters that open or close a collection, or separate its items. -/
def isFlowMark (c : Char) : Bool := c = ',' || c = '[' || c = ']' || c = '\x7b' || c = '\x7d'

/-- What follows a plain scalar, and whether it is on a later line. -/
structure PlainEnd where
  text : String
  broken : Bool
  rest : List Place

/-- Read a plain scalar. It ends before a colon or a comment that stands apart, before a line with
less indentation than `margin`, and inside brackets before a mark of a collection. -/
def plainFrom (flow : Bool) (margin : Nat) (read : List Char) (gap : Gap) :
    List Place → Option PlainEnd
  | [] => some ⟨String.ofList read.reverse, gap.broken, []⟩
  | a :: rest =>
    let done : Option PlainEnd := some ⟨String.ofList read.reverse, gap.broken, a :: rest⟩
    if isBlank a.char then
      if gap.broken && a.char = '\t' && a.column < margin then none
      else plainFrom flow margin read (gap.add a.char) rest
    else if isBreak a.char then plainFrom flow margin read (gap.add a.char) rest
    else if gap.broken && !flow && a.column < margin then done
    else if atDocumentMarker (a :: rest) then done
    else if a.char = '#' && !gap.isNone then done
    else if a.char = ':' && atGap rest then done
    else if flow && a.char = ':' && nextIs (fun c => c = '?' || isFlowMark c) rest then none
    else if flow && isFlowMark a.char then done
    else plainFrom flow margin (a.char :: (gap.chars ++ read)) .none rest

/-! ## Quoted scalars -/

/-- Read a scalar up to its closing single quote. Two quotes stand for one. -/
def singleFrom (read : List Char) (gap : Gap) : List Place → Option (String × List Place)
  | [] => none
  | a :: rest =>
    if isBlank a.char || isBreak a.char then singleFrom read (gap.add a.char) rest
    else if atDocumentMarker (a :: rest) then none
    else
      let read := gap.chars ++ read
      match a.char, rest with
      | '\'', b :: rest =>
        if b.char = '\'' then singleFrom ('\'' :: read) .none rest
        else some (String.ofList read.reverse, b :: rest)
      | '\'', [] => some (String.ofList read.reverse, [])
      | c, rest => singleFrom (c :: read) .none rest

/-- An escape that has begun. -/
inductive Escape
  | none
  /-- A backslash was read. -/
  | backslash
  /-- Hexadecimal digits are still to be read, after those with a value. -/
  | code (digits value : Nat)

/-- The character that an escape of one letter stands for. -/
def escapedChar? : Char → Option Char
  | '0' => some '\x00'
  | 'a' => some '\x07'
  | 'b' => some '\x08'
  | 't' | '\t' => some '\t'
  | 'n' => some '\n'
  | 'v' => some '\x0b'
  | 'f' => some '\x0c'
  | 'r' => some '\r'
  | 'e' => some '\x1b'
  | ' ' => some ' '
  | '"' => some '"'
  | '/' => some '/'
  | '\\' => some '\\'
  | 'N' => some '\x85'
  | '_' => some '\xa0'
  | 'L' => some '\u2028'
  | 'P' => some '\u2029'
  | _ => none

/-- The number of hexadecimal digits that a letter announces. -/
def codeLength? : Char → Option Nat
  | 'x' => some 2
  | 'u' => some 4
  | 'U' => some 8
  | _ => none

/-- The character of a code. -/
def charOfCode? (n : Nat) : Option Char := if n.isValidChar then some (Char.ofNat n) else none

/-- Read a scalar up to its closing double quote. -/
def doubleFrom (read : List Char) (gap : Gap) :
    Escape → List Place → Option (String × List Place)
  | _, [] => none
  | .none, a :: rest =>
    if isBlank a.char || isBreak a.char then doubleFrom read (gap.add a.char) .none rest
    else if atDocumentMarker (a :: rest) then none
    else
      let read := gap.chars ++ read
      if a.char = '"' then some (String.ofList read.reverse, rest)
      else if a.char = '\\' then doubleFrom read .none .backslash rest
      else doubleFrom (a.char :: read) .none .none rest
  | .backslash, a :: rest =>
    if isBreak a.char then doubleFrom read .escaped .none rest
    else
      match escapedChar? a.char, codeLength? a.char with
      | some c, _ => doubleFrom (c :: read) .none .none rest
      | _, some digits => doubleFrom read .none (.code digits 0) rest
      | _, _ => none
  | .code digits value, a :: rest =>
    match Text.digitIn? 16 a.char with
    | none => none
    | some d =>
      let value := 16 * value + d
      if digits ≤ 1 then
        match charOfCode? value with
        | some c => doubleFrom (c :: read) .none .none rest
        | none => none
      else doubleFrom read .none (.code (digits - 1) value) rest

/-! ## Block scalars -/

/-- What becomes of the line breaks at the end of a block. -/
inductive Chomping
  | strip
  | clip
  | keep
  deriving DecidableEq

/-- The header of a block: what becomes of its end, and its indentation if it is given. -/
structure BlockHeader where
  chomping : Chomping
  indent : Option Nat

/-- The mark that tells what becomes of the end of a block. -/
def chomping? : Char → Option Chomping
  | '-' => some .strip
  | '+' => some .keep
  | _ => none

/-- Read the header of a block behind its mark: in any order a sign and a digit other than zero. -/
def blockHeader? (text : List Place) : Option (BlockHeader × List Place) :=
  let sign (text : List Place) : Option Chomping × List Place :=
    match text with
    | [] => (none, [])
    | a :: rest => match chomping? a.char with
      | some c => (some c, rest)
      | none => (none, a :: rest)
  let digit (text : List Place) : Option (Option Nat × List Place) :=
    match text with
    | [] => some (none, [])
    | a :: rest => match Text.digitIn? 10 a.char with
      | some 0 => none
      | some d => some (some d, rest)
      | none => some (none, a :: rest)
  let (before, text) := sign text
  (digit text).bind fun (indent, text) =>
  let (behind, text) := match before with
    | some c => (some c, text)
    | none => sign text
  (endLine? text).map fun text => (⟨behind.getD .clip, indent⟩, text)

/-- What was read of a block. -/
structure Block where
  /-- The characters, in reverse. -/
  read : List Char
  /-- The break at the end of the last line that is not empty. -/
  last : Option Char
  /-- The breaks of the empty lines behind it, in reverse. -/
  empty : List Char
  /-- The last line that is not empty begins with a blank. -/
  blank : Bool

namespace Block

/-- The block with the first character of a new line. In a folded block a break between two lines
that do not begin with blanks is read as a space, or dropped if empty lines follow. -/
def begin (folded : Bool) (b : Block) (c : Char) : Block :=
  let joint :=
    if folded && b.last = some '\n' && !b.blank && !isBlank c then
      if b.empty.isEmpty then [' '] else b.empty
    else b.empty ++ b.last.toList
  ⟨c :: (joint ++ b.read), none, [], isBlank c⟩

/-- The text of the block. -/
def text (b : Block) (chomping : Chomping) : String :=
  let tail := match chomping with
    | .strip => []
    | .clip => b.last.toList
    | .keep => b.empty ++ b.last.toList
  String.ofList (tail ++ b.read).reverse

end Block

/-- Where the reader of a block stands. -/
inductive BlockState
  /-- At the start of a line, or in its indentation; `widest` is the widest indentation so far. -/
  | start (widest : Nat)
  /-- In a line with this indentation. -/
  | line

/-- Read the lines of a block. The first line that is not empty decides the indentation if it is
not given; the block ends before the first line with another one. -/
def blockFrom (folded : Bool) (margin : Nat) (indent : Option Nat) (b : Block) :
    BlockState → List Place → Option (Block × List Place)
  | _, [] => some (b, [])
  | .start widest, a :: rest =>
    let inMargin : Bool := match indent with
      | some n => a.column < n
      | none => true
    if a.char = ' ' && inMargin then blockFrom folded margin indent b (.start widest) rest
    else if a.char = '\t' && inMargin then none
    else
      let widest := max widest a.column
      if isBreak a.char then
        blockFrom folded margin indent { b with empty := a.char :: b.empty } (.start widest) rest
      else
        let n := indent.getD (max widest (max margin 1))
        if a.column = n then blockFrom folded margin (some n) (b.begin folded a.char) .line rest
        else some (b, a :: rest)
  | .line, a :: rest =>
    if isBreak a.char then
      blockFrom folded margin indent { b with last := some a.char } (.start 0) rest
    else blockFrom folded margin indent { b with read := a.char :: b.read } .line rest

/-- Read a block behind its mark. The indentation in the header counts from that of the parent,
which is one less than `margin`. -/
def block? (folded : Bool) (margin : Nat) (text : List Place) : Option (String × List Place) := do
  let (header, text) ← blockHeader? text
  let indent := header.indent.map (margin - 1 + ·)
  let (b, text) ← blockFrom folded margin indent ⟨[], none, [], false⟩ (.start 0) text
  some (b.text header.chomping, text)

end LiveTable.Yaml
