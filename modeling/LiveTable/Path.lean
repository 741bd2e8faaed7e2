import LiveTable.Text.Split

/-!
# Paths

A path is a text of names between slashes. Where it leads is the row of names from the root of the
disk: a single dot leads nowhere, and two dots lead back.
-/

namespace LiveTable.Path

/-- The path starts at the root. -/
def isAbsolute (path : String) : Bool := Text.beginsWith "/" path

/-- Two paths with one slash between them; none is added to one that is there. -/
def join (left right : String) : String :=
  if left.isEmpty || left.toList.getLast? = some '/' then left ++ right else left ++ "/" ++ right

/-- The names of a path, dots that lead nowhere left out. -/
def names (path : String) : List String :=
  (Text.split '/' path).filter fun name => !name.isEmpty && name != "."

/-- Follow names from a place. -/
def follow (place : List String) (names : List String) : List String :=
  names.foldl (fun place name => if name = ".." then place.dropLast else place ++ [name]) place

/-- The place at which a path starts, given the working directory. -/
def origin (working path : String) : List String :=
  if isAbsolute path then [] else follow [] (names working)

/-- The place to which a path leads, given the working directory. -/
def place (working path : String) : List String := follow (origin working path) (names path)

/-- The places on the way to the directory of a path. -/
def parents (working path : String) : List (List String) :=
  let way := (names path).dropLast
  (List.range way.length).map fun i => follow (origin working path) (way.take (i + 1))

end LiveTable.Path
