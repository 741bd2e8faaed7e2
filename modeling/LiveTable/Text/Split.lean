/-!
# Parts of a text

Cutting a text at a character. A text without the character has one part, and joining the parts
with the character gives the text back.
-/

namespace LiveTable.Text

/-- The parts of a row of characters, given the part that is being read, in reverse. -/
def splitFrom (separator : Char) (part : List Char) : List Char → List (List Char)
  | [] => [part.reverse]
  | c :: rest =>
    if c = separator then part.reverse :: splitFrom separator [] rest
    else splitFrom separator (c :: part) rest

/-- The parts between separators. -/
def split (separator : Char) (s : String) : List String :=
  (splitFrom separator [] s.toList).map String.ofList

/-- The parts before and after the first separator, if there is one. -/
def splitOnce? (separator : Char) : List Char → Option (List Char × List Char)
  | [] => none
  | c :: rest =>
    if c = separator then some ([], rest)
    else (splitOnce? separator rest).map fun (a, b) => (c :: a, b)

/-- The text begins with another. -/
def beginsWith (start s : String) : Bool := start.toList.isPrefixOf s.toList

end LiveTable.Text
