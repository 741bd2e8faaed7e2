/-!
# Characters and where they stand

Indentation decides what a line of a YAML text belongs to, so the text is read as a row of
characters that know their line and column. All line breaks of one kind look the same: a carriage
return, alone or with a line feed, and a next-line character are read as a line feed.
-/

namespace LiveTable.Yaml

/-- A character of a text and where it stands. -/
structure Place where
  char : Char
  line : Nat
  column : Nat
  /-- The number of characters before it. -/
  index : Nat
  deriving DecidableEq

/-- Characters that may stand in a text: those that can be printed, tabs and line breaks. -/
def isAllowed (c : Char) : Bool :=
  let n := c.toNat
  n = 0x09 || n = 0x0a || n = 0x0d || (0x20 ≤ n && n ≤ 0x7e) || n = 0x85
    || (0xa0 ≤ n && n ≤ 0xfffd) || 0x10000 ≤ n

/-- A line break, once they look the same. -/
def isBreak (c : Char) : Bool := c = '\n' || c = '\u2028' || c = '\u2029'

/-- A space or a tab. -/
def isBlank (c : Char) : Bool := c = ' ' || c = '\t'

/-- A letter, a digit, a hyphen or an underscore. -/
def isWord (c : Char) : Bool := c.isAlphanum || c = '-' || c = '_'

/-- Characters with their places, from a place on. -/
def placesFrom (line column index : Nat) : List Char → List Place
  | [] => []
  | '\r' :: '\n' :: rest => ⟨'\n', line, column, index⟩ :: placesFrom (line + 1) 0 (index + 1) rest
  | c :: rest =>
    let c := if c = '\r' || c = '\x85' then '\n' else c
    ⟨c, line, column, index⟩ ::
      if isBreak c then placesFrom (line + 1) 0 (index + 1) rest
      else placesFrom line (column + 1) (index + 1) rest

/-- The characters of a text with their places; none if there is a character that must not stand
in a text. A byte-order mark in front is skipped. -/
def places? (text : String) : Option (List Place) :=
  let cs := match text.toList with
    | '\ufeff' :: rest => rest
    | cs => cs
  if cs.all isAllowed then some (placesFrom 0 0 0 cs) else none

/-- The next character, if there is one, satisfies a condition. -/
def nextIs (p : Char → Bool) : List Place → Bool
  | [] => false
  | a :: _ => p a.char

/-- Nothing follows but a blank, a line break or the end. -/
def atGap : List Place → Bool
  | [] => true
  | a :: _ => isBlank a.char || isBreak a.char

/-- Three characters at the start of a line, with nothing after them. -/
def isMarker (c : Char) : List Place → Bool
  | a :: b :: d :: rest =>
    a.column = 0 && a.char = c && b.char = c && d.char = c && atGap rest
  | _ => false

/-- A line that starts or ends a document. -/
def atDocumentMarker (text : List Place) : Bool := isMarker '-' text || isMarker '.' text

/-- The characters in front that satisfy a condition, and the text after them. -/
def spanPlaces (p : Char → Bool) (text : List Place) : String × List Place :=
  (String.ofList ((text.takeWhile (p ·.char)).map (·.char)), text.dropWhile (p ·.char))

/-- The text from the next line on if only blanks and a comment are left on this one. -/
def endLine? : List Place → Option (List Place)
  | [] => some []
  | a :: rest =>
    if isBreak a.char then some rest
    else if isBlank a.char then endLine? rest
    else if a.char = '#' then some ((rest.dropWhile (!isBreak ·.char)).drop 1)
    else none

end LiveTable.Yaml
