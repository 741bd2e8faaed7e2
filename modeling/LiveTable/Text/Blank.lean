/-!
# Blank characters

The white space of Unicode, words between blanks, and trimming. Letter case is that of the ASCII
letters only; all other characters keep their case.
-/

namespace LiveTable.Text

/-- A character with the property White_Space. -/
def isBlank (c : Char) : Bool :=
  let n := c.toNat
  (9 ≤ n && n ≤ 13) || n = 0x20 || n = 0x85 || n = 0xa0 || n = 0x1680 ||
    (0x2000 ≤ n && n ≤ 0x200a) || n = 0x2028 || n = 0x2029 || n = 0x202f || n = 0x205f ||
    n = 0x3000

/-- Blanks removed from the front. -/
def trimFront (cs : List Char) : List Char := cs.dropWhile isBlank

/-- Blanks removed from both ends. -/
def trim (s : String) : String :=
  String.ofList (trimFront (trimFront s.toList).reverse).reverse

/-- The words of a row of characters, given the word that is being read, in reverse. -/
def wordsFrom (word : List Char) : List Char → List (List Char)
  | [] => if word.isEmpty then [] else [word.reverse]
  | c :: rest =>
    if isBlank c then
      if word.isEmpty then wordsFrom [] rest else word.reverse :: wordsFrom [] rest
    else wordsFrom (c :: word) rest

/-- The words between blanks. -/
def words (s : String) : List String := (wordsFrom [] s.toList).map String.ofList

/-- The text with ASCII capital letters made small. -/
def lower (s : String) : String := String.ofList (s.toList.map Char.toLower)

/-- Equal but for the case of ASCII letters. -/
def sameName (a b : String) : Bool := lower a == lower b

end LiveTable.Text
