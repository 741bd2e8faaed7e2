import LiveTable.Text.Blank

/-!
# Column declarations

A column has a type and constraints. A declaration is a row of words: a type word, then the phrases
of the constraints in any order. Small and capital letters are not told apart.
-/

namespace LiveTable

/-- The declared type of a column. -/
inductive ColumnType
  | text
  | integer
  | real
  | blob
  deriving DecidableEq, Inhabited

/-- Why a declaration is refused. Words are given in small letters. -/
inductive DeclarationError
  | empty
  | unknownType (word : String)
  | unknownConstraint (word : String)
  deriving DecidableEq

/-- The message of a refusal. -/
def DeclarationError.message : DeclarationError → String
  | .empty => "empty column declaration"
  | .unknownType word => "unknown column type: " ++ word
  | .unknownConstraint word => "unknown column constraint: " ++ word

namespace ColumnType

/-- The type in a statement. -/
def sql : ColumnType → String
  | .text => "TEXT"
  | .integer => "INTEGER"
  | .real => "REAL"
  | .blob => "BLOB"

/-- The type of a word in small letters. -/
def ofLower? : String → Option ColumnType
  | "text" => some .text
  | "integer" | "int" => some .integer
  | "real" | "float" | "double" => some .real
  | "blob" => some .blob
  | _ => none

/-- The type of a word. -/
def parse (word : String) : Except DeclarationError ColumnType :=
  let lower := Text.lower word
  match ofLower? lower with
  | some type => .ok type
  | none => .error (.unknownType lower)

end ColumnType

/-- A column's type and constraints. -/
structure ColumnDef where
  type : ColumnType
  primaryKey : Bool
  autoincrement : Bool
  notNull : Bool
  deriving DecidableEq, Inhabited

namespace ColumnDef

/-- A column without constraints. -/
def plain (type : ColumnType) : ColumnDef := ⟨type, false, false, false⟩

/-- The column as primary key. -/
def asPrimaryKey (d : ColumnDef) : ColumnDef := { d with primaryKey := true }

/-- The column as a primary key whose values are never used again. -/
def asAutoincrement (d : ColumnDef) : ColumnDef :=
  { d with primaryKey := true, autoincrement := true }

/-- The column without nulls. -/
def asNotNull (d : ColumnDef) : ColumnDef := { d with notNull := true }

/-- The words of the declaration in a statement. -/
def sqlWords (d : ColumnDef) : List String :=
  [d.type.sql] ++ (if d.primaryKey then ["PRIMARY", "KEY"] else [])
    ++ (if d.autoincrement then ["AUTOINCREMENT"] else [])
    ++ (if d.notNull then ["NOT", "NULL"] else [])

/-- What holds of the words for types and constraints holds of the words of every declaration. -/
theorem forall_sqlWords {property : String → Prop} (holds : ∀ word ∈
    ["TEXT", "INTEGER", "REAL", "BLOB", "PRIMARY", "KEY", "AUTOINCREMENT", "NOT", "NULL"], property word)
    (d : ColumnDef) : ∀ word ∈ d.sqlWords, property word := by
  simp only [List.forall_mem_cons] at holds
  obtain ⟨text, integer, real, blob, primary, key, autoincrement, not, null, -⟩ := holds
  simp only [sqlWords, List.forall_mem_append, List.forall_mem_singleton]
  refine ⟨⟨⟨?_, ?_⟩, ?_⟩, ?_⟩
  · cases d.type <;> assumption
  · cases d.primaryKey <;> simp [primary, key]
  · cases d.autoincrement <;> simp [autoincrement]
  · cases d.notNull <;> simp [not, null]

/-- The declaration in a statement. -/
def sql (d : ColumnDef) : String := " ".intercalate d.sqlWords

/-- The constraints that words in small letters add to a column. -/
def constrain (d : ColumnDef) : List String → Except DeclarationError ColumnDef
  | [] => .ok d
  | "primary" :: "key" :: rest => constrain d.asPrimaryKey rest
  | "not" :: "null" :: rest => constrain d.asNotNull rest
  | "autoincrement" :: rest => constrain d.asAutoincrement rest
  | word :: _ => .error (.unknownConstraint word)

/-- The column that a declaration describes. -/
def parse (declaration : String) : Except DeclarationError ColumnDef :=
  match (Text.words declaration).map Text.lower with
  | [] => .error .empty
  | word :: rest => do (plain (← ColumnType.parse word)).constrain rest

end ColumnDef

end LiveTable
