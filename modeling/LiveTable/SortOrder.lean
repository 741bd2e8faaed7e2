import LiveTable.Error

/-!
# Sort orders

A sort order is a list of columns with directions. In JSON it is an object from columns to codes:
the number one is ascending and every other code is descending.
-/

namespace LiveTable

/-- The direction of a sort key. -/
inductive Direction
  | ascending
  | descending
  deriving DecidableEq

namespace Direction

/-- The direction in a statement. -/
def sql : Direction → String
  | .ascending => "ASC"
  | .descending => "DESC"

/-- The code one is ascending, every other code descending. -/
def ofCode (code : Int64) : Direction := if code = 1 then .ascending else .descending

/-- The direction of a JSON code: ascending iff it is a number whose nearest floating-point number
is one. -/
def ofJson (code : Json) : Direction :=
  match code.asReal? with
  | some x => if x.numEq (.ofInt 1) then .ascending else .descending
  | none => .descending

end Direction

/-- A column to sort by. -/
structure SortKey where
  column : String
  direction : Direction
  deriving DecidableEq

/-- Sort keys, the most significant first. -/
structure SortOrder where
  keys : List SortKey
  deriving DecidableEq

namespace SortOrder

/-- No order. -/
def empty : SortOrder := ⟨[]⟩

instance : Inhabited SortOrder := ⟨empty⟩

/-- The order with one more key at its end. -/
def add (s : SortOrder) (column : String) (direction : Direction) : SortOrder :=
  ⟨s.keys ++ [⟨column, direction⟩]⟩

/-- No keys. -/
def isEmpty (s : SortOrder) : Bool := s.keys.isEmpty

/-- The sort order that a JSON document describes; null is no order. -/
def ofJson : Json → Except Error SortOrder
  | .null => .ok empty
  | .object members => .ok ⟨members.map fun (column, code) => ⟨column, .ofJson code⟩⟩
  | _ => .error (.invalidOperand "sort" .notObject)

end SortOrder

end LiveTable
