/-!
# Plain identifiers

The names that may stand in a statement: a letter or an underscore, then letters, digits and
underscores, of ASCII and at most sixty-four of them.
-/

namespace LiveTable

/-- A letter of ASCII or the underscore. -/
def isNameStart (c : Char) : Bool := c.isAlpha || c = '_'

/-- A letter or digit of ASCII or the underscore. -/
def isNameChar (c : Char) : Bool := c.isAlphanum || c = '_'

/-- The characters of a plain identifier. -/
def isIdentifierChars : List Char → Bool
  | [] => false
  | c :: rest => isNameStart c && rest.all isNameChar && rest.length < 64

/-- The text is a plain identifier. -/
def isIdentifier (name : String) : Bool := isIdentifierChars name.toList

/-- The reserved column, which holds the time of insertion in milliseconds. -/
def addedColumn : String := "added"

theorem isIdentifier_added : isIdentifier addedColumn = true := by decide

end LiveTable
