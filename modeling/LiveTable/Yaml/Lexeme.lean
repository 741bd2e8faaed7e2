import LiveTable.Yaml.Scalar

/-!
# Lexemes

A YAML text as a row of lexemes. Indentation is made visible: a block collection has a lexeme where
it begins and one where it ends. A key of one line is not announced by a mark, so only the colon
behind it tells that it is one; its lexeme, and that of the mapping that begins with it, are then
put in front of it.
-/

namespace LiveTable.Yaml

/-- A lexeme of a YAML text. -/
inductive Lexeme
  /-- A declaration of the version. -/
  | version (major minor : Nat)
  /-- A declaration of what a handle in tags stands for. -/
  | handle (handle expansion : String)
  | documentStart
  | documentEnd
  | blockSequence
  | blockMapping
  | blockEnd
  | flowSequence
  | flowSequenceEnd
  | flowMapping
  | flowMappingEnd
  /-- The hyphen of an item. -/
  | item
  /-- The comma between items. -/
  | comma
  | key
  | value
  | anchor (name : String)
  | alias (name : String)
  | tag (handle rest : String)
  | scalar (style : Style) (text : String)
  deriving DecidableEq

/-! ## Tags, anchors and declarations -/

/-- Characters of a tag. -/
def isTagChar (c : Char) : Bool := isWord c || ";/?:@&=+$.!~*'()%".toList.contains c

/-- Characters of a tag that is written in full, or of what a handle stands for. -/
def isFullTagChar (c : Char) : Bool := isTagChar c || c = ',' || c = '[' || c = ']'

/-- Read a tag behind its exclamation mark. -/
def tag? (flow : Bool) (text : List Place) : Option (Lexeme × List Place) := do
  let (lexeme, text) ← if nextIs (· = '<') text then do
      let (name, text) := spanPlaces isFullTagChar (text.drop 1)
      if name.isEmpty || !nextIs (· = '>') text then none
      else some (Lexeme.tag "" name, text.drop 1)
    else do
      let (word, text) := spanPlaces isWord text
      if nextIs (· = '!') text then do
        let (name, text) := spanPlaces isTagChar (text.drop 1)
        if name.isEmpty then none else some (Lexeme.tag ("!" ++ word ++ "!") name, text)
      else do
        let (more, text) := spanPlaces isTagChar text
        let name := word ++ more
        some (if name.isEmpty then Lexeme.tag "" "!" else Lexeme.tag "!" name, text)
  if atGap text || (flow && nextIs (· = ',') text) then some (lexeme, text) else none

/-- Read the name of an anchor. -/
def anchorName? (text : List Place) : Option (String × List Place) :=
  let (name, rest) := spanPlaces isWord text
  if name.isEmpty then none
  else if atGap rest || nextIs ("?:,]\x7d%@\x60".toList.contains ·) rest then some (name, rest)
  else none

/-- Read a number of a version. -/
def versionNumber? (text : List Place) : Option (Nat × List Place) := do
  let (digits, text) := spanPlaces Char.isDigit text
  if digits.length > 9 then none else some (← Text.numeral? 10 digits.toList, text)

/-- Read a declaration behind its percent sign. -/
def declaration? (text : List Place) : Option (Lexeme × List Place) := do
  let (name, text) := spanPlaces isWord text
  let (gap, text) := spanPlaces isBlank text
  let (lexeme, text) ← match name with
    | "YAML" => do
      let (major, text) ← versionNumber? text
      if !nextIs (· = '.') text then none
      else
        let (minor, text) ← versionNumber? (text.drop 1)
        some (Lexeme.version major minor, text)
    | "TAG" => do
      if !nextIs (· = '!') text then none
      else
        let (word, text) := spanPlaces isWord (text.drop 1)
        let (close, text) := spanPlaces (· = '!') text
        let (_, text) := spanPlaces isBlank text
        let (expansion, text) := spanPlaces isFullTagChar text
        if expansion.isEmpty || close.length > 1 || (close.isEmpty && !word.isEmpty) then none
        else some (Lexeme.handle ("!" ++ word ++ close) expansion, text)
    | _ => none
  if gap.isEmpty || !atGap text then none else some (lexeme, ← endLine? text)

/-! ## The reader of lexemes -/

/-- A place where a key may have begun. -/
structure PossibleKey where
  /-- The number of lexemes in front of it. -/
  count : Nat
  line : Nat
  column : Nat
  index : Nat
  /-- A block mapping goes on here, so it must be a key. -/
  required : Bool
  deriving DecidableEq

/-- The state of the reader. Indentations are counted with one more than their column, and zero
stands for the indentation of the document. -/
structure Lexing where
  rest : List Place
  /-- The indentation of the block that is open. -/
  margin : Nat
  /-- The indentations of the blocks around it. -/
  margins : List Nat
  /-- For the block level and for every flow collection that is open, the innermost first, the
  place where a key may have begun. -/
  keys : List (Option PossibleKey)
  /-- A key may begin here. -/
  keyAllowed : Bool
  /-- The lexemes, in reverse. -/
  lexemes : List Lexeme

namespace Lexing

/-- The reader at the start of a text. -/
def start (text : List Place) : Lexing where
  rest := text
  margin := 0
  margins := []
  keys := [none]
  keyAllowed := true
  lexemes := []

/-- A flow collection is open. -/
def inFlow (s : Lexing) : Bool := 1 < s.keys.length

/-- Add a lexeme. -/
def emit (s : Lexing) (l : Lexeme) : Lexing := { s with lexemes := l :: s.lexemes }

/-- Put a lexeme behind the first `count` ones. -/
def insert (s : Lexing) (count : Nat) (l : Lexeme) : Lexing :=
  let later := s.lexemes.length - count
  { s with lexemes := s.lexemes.take later ++ l :: s.lexemes.drop later }

/-- Leave the blanks, comments and line breaks behind. A key may begin on a new line. Tabs do not
indent. -/
def skipFrom (flow : Bool) (allowed comment : Bool) : List Place → Bool × List Place
  | [] => (allowed, [])
  | a :: rest =>
    if isBreak a.char then skipFrom flow (allowed || !flow) false rest
    else if comment then skipFrom flow allowed true rest
    else if a.char = ' ' || (a.char = '\t' && (flow || !allowed)) then
      skipFrom flow allowed false rest
    else if a.char = '#' then skipFrom flow allowed true rest
    else (allowed, a :: rest)

/-- Move on to the next lexeme. -/
def skip (s : Lexing) : Lexing :=
  let (keyAllowed, rest) := skipFrom s.inFlow s.keyAllowed false s.rest
  { s with keyAllowed, rest }

/-- Forget the keys that are no longer possible here: a key and its colon stand on one line, at
most 1024 characters apart. It is an error if one of them was required. -/
def dropStale? (s : Lexing) : Option Lexing := do
  let keep (key : Option PossibleKey) : Option (Option PossibleKey) :=
    match key, s.rest with
    | some k, a :: _ =>
      if k.line < a.line || k.index + 1024 < a.index then
        if k.required then none else some none
      else some (some k)
    | key, _ => some key
  some { s with keys := ← s.keys.mapM keep }

/-- No key begins at the innermost level; it is an error if one was required. -/
def dropKey? (s : Lexing) : Option Lexing :=
  match s.keys with
  | some k :: keys => if k.required then none else some { s with keys := none :: keys }
  | _ => some s

/-- A key may begin at a place. -/
def saveKey? (s : Lexing) (a : Place) : Option Lexing :=
  if s.keyAllowed then do
    let s ← s.dropKey?
    let key : PossibleKey :=
      ⟨s.lexemes.length, a.line, a.column, a.index, !s.inFlow && s.margin = a.column + 1⟩
    some { s with keys := some key :: s.keys.tail }
  else some s

/-- Close the blocks that are indented more than a margin. -/
def closeFrom (margin : Nat) (s : Lexing) : List Nat → Lexing
  | [] => s
  | outer :: margins =>
    if margin < s.margin then
      closeFrom margin { s.emit .blockEnd with margin := outer, margins } margins
    else s

/-- Close the blocks that are indented more than a margin, unless a flow collection is open. -/
def close (s : Lexing) (margin : Nat) : Lexing :=
  if s.inFlow then s else closeFrom margin s s.margins

/-- Begin a block collection behind the first `count` lexemes if its column is indented more than
the block that is open. -/
def openBlock (s : Lexing) (column count : Nat) (l : Lexeme) : Lexing :=
  if !s.inFlow && s.margin ≤ column then
    { s.insert count l with margin := column + 1, margins := s.margin :: s.margins }
  else s

/-- End all that is open in front of a line that starts or ends a document. -/
def endDocument? (s : Lexing) : Option Lexing := do
  some { ← (s.close 0).dropKey? with keyAllowed := false }

/-- The mark of an item or of a key that is announced. -/
def mark? (s : Lexing) (a : Place) (opening mark : Lexeme) : Option Lexing := do
  if !s.inFlow && !s.keyAllowed then none
  else
    let s ← (s.openBlock a.column s.lexemes.length opening).dropKey?
    some (s.emit mark)

/-- The colon behind a key. -/
def value? (s : Lexing) (a : Place) : Option Lexing :=
  match s.keys with
  | some k :: keys =>
    let s := { s.insert k.count .key with keys := none :: keys, keyAllowed := false }
    some ((s.openBlock k.column k.count .blockMapping).emit .value)
  | _ =>
    if !s.inFlow && !s.keyAllowed then none
    else
      let s := s.openBlock a.column s.lexemes.length .blockMapping
      some { s.emit .value with keyAllowed := !s.inFlow }

/-- A character that cannot begin a plain scalar. -/
def isIndicator (c : Char) : Bool := "-?:,[]\x7b\x7d#&*!|>'\"%@\x60".toList.contains c

/-- A plain scalar can begin here. -/
def beginsPlain (flow : Bool) : List Place → Bool
  | [] => false
  | a :: rest =>
    let blankNext := nextIs isBlank rest
    !isBlank a.char && (!isIndicator a.char || (a.char = '-' && !blankNext)
      || (!flow && (a.char = '?' || a.char = ':') && !atGap rest))

/-- A lexeme that may be a key, read from a place on. -/
def keyLike? (s : Lexing) (a : Place) (read : Option (Lexeme × List Place)) :
    Option Lexing := do
  let s ← s.saveKey? a
  let (lexeme, rest) ← read
  some { s.emit lexeme with rest, keyAllowed := false }

/-- Read the lexeme that begins at a place. -/
def read? (s : Lexing) (a : Place) (rest : List Place) : Option Lexing := do
  let flow := s.inFlow
  let here := a :: rest
  let s := { s with rest }
  if a.column = 0 && a.char = '%' then
    let s ← s.endDocument?
    let (lexeme, rest) ← declaration? rest
    some { s.emit lexeme with rest }
  else if isMarker '-' here then
    some { (← s.endDocument?).emit .documentStart with rest := rest.drop 2 }
  else if isMarker '.' here then
    some { (← s.endDocument?).emit .documentEnd with rest := rest.drop 2 }
  else if a.char = '[' then
    let s := (← s.saveKey? a).emit .flowSequence
    some { s with keys := none :: s.keys, keyAllowed := true }
  else if a.char = '\x7b' then
    let s := (← s.saveKey? a).emit .flowMapping
    some { s with keys := none :: s.keys, keyAllowed := true }
  else if a.char = ']' || a.char = '\x7d' then
    let s ← s.dropKey?
    let s := s.emit (if a.char = ']' then .flowSequenceEnd else .flowMappingEnd)
    some { s with keys := if flow then s.keys.tail else s.keys, keyAllowed := false }
  else if a.char = ',' then
    some { (← s.dropKey?).emit .comma with keyAllowed := true }
  else if a.char = '-' && atGap rest then
    some { ← s.mark? a .blockSequence .item with keyAllowed := true }
  else if a.char = '?' && (flow || atGap rest) then
    some { ← s.mark? a .blockMapping .key with keyAllowed := !flow }
  else if a.char = ':' && (flow || atGap rest) then s.value? a
  else if a.char = '*' then
    s.keyLike? a ((anchorName? rest).map fun (name, rest) => (.alias name, rest))
  else if a.char = '&' then
    s.keyLike? a ((anchorName? rest).map fun (name, rest) => (.anchor name, rest))
  else if a.char = '!' then s.keyLike? a (tag? flow rest)
  else if (a.char = '|' || a.char = '>') && !flow then
    let s ← s.dropKey?
    let folded := a.char = '>'
    let (text, rest) ← block? folded s.margin rest
    some { s.emit (.scalar (if folded then .folded else .literal) text) with
      rest, keyAllowed := true }
  else if a.char = '\'' then
    s.keyLike? a ((singleFrom [] .none rest).map fun (t, rest) => (.scalar .singleQuoted t, rest))
  else if a.char = '"' then
    s.keyLike? a
      ((doubleFrom [] .none .none rest).map fun (t, rest) => (.scalar .doubleQuoted t, rest))
  else if beginsPlain flow here then
    let s ← s.saveKey? a
    let plain ← plainFrom flow s.margin [] .none here
    some { s.emit (.scalar .plain plain.text) with rest := plain.rest, keyAllowed := plain.broken }
  else none

/-- Read all lexemes; each takes at least one of the characters. -/
def run? : Nat → Lexing → Option Lexing
  | 0, _ => none
  | fuel + 1, s => do
    let s ← s.skip.dropStale?
    match s.rest with
    | [] => (s.close 0).dropKey?
    | a :: rest => run? fuel (← (s.close (a.column + 1)).read? a rest)

end Lexing

/-- The lexemes of a text. -/
def Lexeme.ofText? (text : String) : Option (List Lexeme) := do
  let places ← places? text
  let s ← (Lexing.start places).run? (places.length + 1)
  some s.lexemes.reverse

end LiveTable.Yaml
