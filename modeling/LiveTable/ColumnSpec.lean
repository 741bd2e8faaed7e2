import LiveTable.Column
import LiveTable.Ordered
import LiveTable.Text.Quoted
import LiveTable.Text.Split

/-!
# Column lists

The columns of a table by name, in order. They are given as pairs of a name and a declaration with
a colon between them; a name that is given again takes its last declaration in its first place.
-/

namespace LiveTable

/-- Column declarations by name, in order. -/
abbrev ColumnSpec := Ordered ColumnDef

/-- Why a list of pairs is refused. -/
inductive PairError
  /-- A pair without a colon. -/
  | noColon (pair : String)
  | declaration (e : DeclarationError)
  deriving DecidableEq

/-- The message of a refusal. -/
def PairError.message : PairError → String
  | .noColon pair => "expected name:type, got " ++ Text.quoted pair
  | .declaration e => e.message

namespace ColumnSpec

/-- The name and the declaration of a pair. -/
def parsePair (pair : String) : Except PairError (String × ColumnDef) :=
  match Text.splitOnce? ':' pair.toList with
  | none => .error (.noColon pair)
  | some (name, declaration) =>
    match ColumnDef.parse (String.ofList declaration) with
    | .ok d => .ok (Text.trim (String.ofList name), d)
    | .error e => .error (.declaration e)

/-- The columns that a list of pairs describes; the first pair that is refused decides. -/
def parsePairs (pairs : List String) : Except PairError ColumnSpec := do
  .ok (Ordered.ofList (← pairs.mapM parsePair))

end ColumnSpec

end LiveTable
