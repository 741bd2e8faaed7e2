import LiveTable.Proofs.Operations
import LiveTable.Proofs.Reading
import LiveTable.Proofs.Requests

/-!
# Statements determine requests

What is asked of a table can be told from the text of the statement that is sent and the values that go
with it, whatever names the table and its columns have. Every placeholder stands in the text where the
column or the field is named that its value is for.
-/

namespace LiveTable

/-- What a statement and its parameters ask of a table. -/
inductive Meaning
  | insert (table : String) (row : Row)
  | update (table : String) (filter : Filter) (row : Row)
  | delete (table : String) (filter : Filter)
  | select (table : String) (columns : List String) (filter : Filter) (order : SortOrder)
  deriving DecidableEq

/-- The conditions of tests with the values behind their placeholders, if these are as many. -/
def fill : List Test → List Value → Option (List Clause)
  | [], [] => some []
  | ⟨field, .compare op⟩ :: tests, value :: values =>
    (fill tests values).map (⟨field, .compare op value⟩ :: ·)
  | ⟨field, .member op count⟩ :: tests, values =>
    if count ≤ values.length then
      (fill tests (values.drop count)).map (⟨field, .member op (values.take count)⟩ :: ·)
    else none
  | _, _ => none

/-- What a statement asks of a table with its parameters. -/
def Statement.meaning? (params : List Value) : Statement → Option Meaning
  | .insert table columns =>
    if columns.length = params.length then some (.insert table (.ofList (columns.zip params)))
    else none
  | .update table columns tests =>
    if columns.length ≤ params.length then
      (fill tests (params.drop columns.length)).map fun clauses =>
        .update table ⟨clauses⟩ (.ofList (columns.zip (params.take columns.length)))
    else none
  | .delete table tests => (fill tests params).map fun clauses => .delete table ⟨clauses⟩
  | .select projection table tests keys =>
    (fill tests params).map fun clauses => .select table projection ⟨clauses⟩ ⟨keys⟩
  | _ => none

/-- What a text and its parameters ask of a table. -/
def decode? (text : String) (params : List Value) : Option Meaning :=
  (Statement.read? text).bind (Statement.meaning? params)

/-- The condition of a comparison in place of an equality. -/
def Condition.compared : Condition → Condition
  | .equals value => .compare .eq value
  | condition => condition

/-- The filter with comparisons in place of equalities. -/
def Filter.compared (f : Filter) : Filter :=
  ⟨f.clauses.map fun c => ⟨c.field, c.condition.compared⟩⟩

namespace Demand

/-- A row that is set has a column. -/
def Definite : Demand → Prop
  | update _ _ row => row.names ≠ []
  | _ => True

/-- What is asked for at a time: a row with its stamp, a filter with comparisons in place of equalities,
and the star in place of no columns. -/
def meaning (now : Int64) : Demand → Meaning
  | insert table row => .insert table (Request.stamped now row)
  | update table filter row => .update table filter.compared row
  | delete table filter => .delete table filter.compared
  | select spec =>
    .select spec.table (Request.projection spec.columns) spec.filter.compared spec.order

end Demand

/-- A part of the text of a statement. If it has a placeholder, that is marked by the column or the field
that it belongs to, and its value. -/
structure Part where
  text : String
  mark : Option (String × Value)

namespace Part

/-- A part without a placeholder. -/
def fixed (text : String) : Part := ⟨text, none⟩

/-- Rows of parts with a fixed text between them. -/
def joined (separator : String) (rows : List (List Part)) : List Part :=
  List.intercalate [fixed separator] rows

end Part

/-- The parts of a condition on a field. -/
def Condition.parts (field : String) : Condition → List Part
  | .equals value => [⟨field ++ " = ?", some (field, value)⟩]
  | .compare op value => [⟨field ++ " " ++ op.sql ++ " ?", some (field, value)⟩]
  | .member op values =>
    .fixed (field ++ " " ++ op.sql ++ " (") ::
      Part.joined ", " (values.map fun value => [⟨"?", some (field, value)⟩]) ++ [.fixed ")"]

/-- The parts of a filter in a statement. -/
def Filter.parts (f : Filter) : List Part :=
  if f.isEmpty then []
  else .fixed " WHERE " :: Part.joined " AND " (f.clauses.map fun c => c.condition.parts c.field)

/-- The values of a filter, each with its field. -/
def Filter.bindings (f : Filter) : List (String × Value) :=
  f.clauses.flatMap fun c => c.condition.operands.map fun value => (c.field, value)

namespace Demand

/-- The parts of the text that is sent for a request. -/
def parts (now : Int64) : Demand → List Part
  | insert table row =>
    .fixed ("INSERT INTO " ++ table ++ " (" ++
        ", ".intercalate (Request.stamped now row).names ++ ") VALUES (") ::
      Part.joined ", " ((Request.stamped now row).entries.map fun e => [⟨"?", some e⟩]) ++ [.fixed ")"]
  | update table filter row =>
    .fixed ("UPDATE " ++ table ++ " SET ") ::
      Part.joined ", " (row.entries.map fun e => [⟨e.1 ++ " = ?", some e⟩]) ++ filter.parts
  | delete table filter => .fixed ("DELETE FROM " ++ table) :: filter.parts
  | select spec =>
    .fixed ("SELECT " ++ ", ".intercalate (Request.projection spec.columns) ++ " FROM " ++ spec.table) ::
      spec.filter.parts ++ [.fixed (String.join ((Statement.orderPieces spec.order.keys).map
        Statement.Piece.text))]

/-- The columns and fields of a request with the values that are sent for them: first those that are
set, then those that are compared. -/
def bindings (now : Int64) : Demand → List (String × Value)
  | insert _ row => (Request.stamped now row).entries
  | update _ filter row => row.entries ++ filter.bindings
  | delete _ filter => filter.bindings
  | select spec => spec.filter.bindings

end Demand

/-! ## Filters -/

theorem fill_cons (field : String) (condition : Condition) (tests : List Test) (values : List Value) :
    fill (⟨field, condition.testOp⟩ :: tests) (condition.operands ++ values) =
      (fill tests values).map (⟨field, condition.compared⟩ :: ·) := by
  cases condition with
  | equals value => rfl
  | compare op value => rfl
  | member op operands => simp [fill, Condition.testOp, Condition.operands, Condition.compared]

theorem fill_clauses (clauses : List Clause) :
    fill (clauses.map fun c => ⟨c.field, c.condition.testOp⟩)
        (clauses.flatMap fun c => c.condition.operands) =
      some (clauses.map fun c => ⟨c.field, c.condition.compared⟩) := by
  induction clauses with
  | nil => rfl
  | cons c rest ih => rw [List.map_cons, List.flatMap_cons, fill_cons, ih]; rfl

/-! ## Texts in parts -/

theorem join_separated (separator : String) (rows : List (List Statement.Piece)) :
    String.join ((Statement.separated separator rows).map Statement.Piece.text) =
      separator.intercalate (rows.map fun row => String.join (row.map Statement.Piece.text)) := by
  fun_induction Statement.separated separator rows with
  | case1 => rfl
  | case2 row => simp
  | case3 row rest more ih =>
    cases rest with
    | nil => exact absurd rfl more
    | cons next rest =>
      rw [List.map_append, List.map_cons, String.join_append, String.join_cons, ih, List.map_cons,
        List.map_cons, List.map_cons, String.intercalate_cons_cons, String.append_assoc]
      rfl

theorem join_joined (separator : String) (rows : List (List Part)) :
    String.join ((Part.joined separator rows).map Part.text) =
      separator.intercalate (rows.map fun row => String.join (row.map Part.text)) := by
  induction rows with
  | nil => rfl
  | cons row rest ih =>
    cases rest with
    | nil => simp [Part.joined]
    | cons next rest =>
      rw [Part.joined] at ih ⊢
      rw [List.intercalate_cons_cons, List.map_append, List.map_append, String.join_append,
        String.join_append, ih]
      simp [Part.fixed, String.intercalate_cons_cons]

theorem marks_joined (separator : String) (rows : List (List Part)) :
    (Part.joined separator rows).filterMap Part.mark = rows.flatMap (·.filterMap Part.mark) := by
  induction rows with
  | nil => rfl
  | cons row rest ih =>
    cases rest with
    | nil => simp [Part.joined]
    | cons next rest =>
      rw [Part.joined] at ih ⊢
      rw [List.intercalate_cons_cons, List.filterMap_append, List.filterMap_append, ih]
      simp [Part.fixed]

theorem mem_joined {separator : String} {rows : List (List Part)} {part : Part}
    (member : part ∈ Part.joined separator rows) :
    part = .fixed separator ∨ ∃ row ∈ rows, part ∈ row := by
  induction rows with
  | nil => cases member
  | cons row rest ih =>
    cases rest with
    | nil => exact .inr ⟨row, by simp, by simpa [Part.joined] using member⟩
    | cons next rest =>
      rw [Part.joined, List.intercalate_cons_cons, List.mem_append, List.mem_append] at member
      rcases member with (here | between) | later
      · exact .inr ⟨row, by simp, here⟩
      · exact .inl (List.mem_singleton.mp between)
      · exact (ih later).imp_right fun ⟨row, present, here⟩ => ⟨row, List.mem_cons_of_mem _ present, here⟩

theorem text_condition (field : String) (condition : Condition) :
    String.join ((condition.parts field).map Part.text) = field ++ (" " ++ condition.testOp.sql) := by
  cases condition with
  | equals value => simp [Condition.parts, Condition.testOp, TestOp.sql, CompareOp.sql]
  | compare op value => simp [Condition.parts, Condition.testOp, TestOp.sql, ← String.toList_inj]
  | member op values =>
    have marks : String.join ((Part.joined ", " (values.map fun value =>
        [⟨"?", some (field, value)⟩])).map Part.text) = TestOp.placeholders values.length := by
      rw [join_joined, List.map_map, TestOp.placeholders, ← List.map_const']
      rfl
    simp only [Condition.parts, List.cons_append, List.map_cons, List.map_append, String.join_cons,
      String.join_append, marks, Condition.testOp, TestOp.sql, Part.fixed, List.map_nil, String.join_nil]
    simp [← String.toList_inj]

/-- Rows of parts and rows of pieces make up the same text if each row does. -/
theorem join_rows {α : Type} (separator : String) (l : List α) (parts : α → List Part)
    (pieces : α → List Statement.Piece) (same : ∀ a, String.join ((parts a).map Part.text) =
      String.join ((pieces a).map Statement.Piece.text)) :
    String.join ((Part.joined separator (l.map parts)).map Part.text) =
      String.join ((Statement.separated separator (l.map pieces)).map Statement.Piece.text) := by
  rw [join_joined, join_separated, List.map_map, List.map_map]
  exact congrArg _ (List.map_congr_left fun a _ => same a)

theorem join_nameList (place : Statement.Place) (names : List String) :
    String.join ((Statement.nameList place names).map Statement.Piece.text) =
      ", ".intercalate names := by
  rw [Statement.nameList, join_separated, List.map_map]
  simp [Function.comp_def, Statement.Piece.text]

theorem text_filter (f : Filter) : String.join (f.parts.map Part.text) =
    String.join ((Statement.wherePieces (f.clauses.map fun c => ⟨c.field, c.condition.testOp⟩)).map
      Statement.Piece.text) := by
  have rows := join_rows " AND " f.clauses (fun c => c.condition.parts c.field)
    (fun c => [.name .field c.field, .word (" " ++ c.condition.testOp.sql)]) fun c => by
      simp [text_condition, Statement.Piece.text]
  have first (l : List Part) : String.join ((.fixed " WHERE " :: l).map Part.text) =
      " WHERE " ++ String.join (l.map Part.text) := by simp [Part.fixed]
  have first' (l : List Statement.Piece) : String.join ((.word " WHERE " :: l).map Statement.Piece.text) =
      " WHERE " ++ String.join (l.map Statement.Piece.text) := by simp [Statement.Piece.text]
  obtain ⟨clauses⟩ := f
  cases clauses with
  | nil => rfl
  | cons c rest =>
    have pieces : Statement.wherePieces ((c :: rest).map fun c => ⟨c.field, c.condition.testOp⟩) =
        .word " WHERE " :: Statement.separated " AND " ((c :: rest).map fun c =>
          [.name .field c.field, .word (" " ++ c.condition.testOp.sql)]) := by
      simp [Statement.wherePieces, Function.comp_def]
    rw [pieces, first', ← rows]
    exact first _

/-- The parts make up the text that is sent. -/
theorem Demand.text_parts {now : Int64} {demand : Demand} {call : Call}
    (accepted : demand.call now = .ok call) :
    call.statement.text = String.join ((demand.parts now).map Part.text) := by
  cases demand with
  | insert table row =>
    obtain ⟨-, -, rfl⟩ := Request.insert_eq_ok.mp accepted
    have marks (l : List (String × Value)) : String.join ((Part.joined ", "
        (l.map fun e => [⟨"?", some e⟩])).map Part.text) = TestOp.placeholders l.length := by
      rw [join_joined, List.map_map, TestOp.placeholders, ← List.map_const']
      rfl
    have size : (Request.stamped now row).names.length = (Request.stamped now row).entries.length :=
      List.length_map _
    simp [Demand.parts, Statement.text, Statement.pieces, join_nameList, marks, size, Part.fixed,
      Statement.Piece.text, ← String.toList_inj]
  | update table filter row =>
    obtain ⟨-, -, predicate, passed, rfl⟩ := Request.update_eq_ok.mp accepted
    obtain ⟨-, rfl⟩ := ofFilter_eq_ok.mp passed
    have rows := join_rows ", " row.entries (fun e => [⟨e.1 ++ " = ?", some e⟩])
      (fun e => [.name .assigned e.1, .word " = ?"]) fun e => by simp [Statement.Piece.text]
    simp [Demand.parts, Statement.text, Statement.pieces, text_filter, rows, Ordered.names, Part.fixed,
      Statement.Piece.text, ← String.toList_inj, Function.comp_def]
  | delete table filter =>
    obtain ⟨-, predicate, passed, rfl⟩ := Request.delete_eq_ok.mp accepted
    obtain ⟨-, rfl⟩ := ofFilter_eq_ok.mp passed
    simp [Demand.parts, text_filter, Statement.text, Statement.pieces, Part.fixed,
      Statement.Piece.text, ← String.toList_inj]
  | select spec =>
    obtain ⟨-, -, predicate, passed, -, rfl⟩ := Request.select_eq_ok.mp accepted
    obtain ⟨-, rfl⟩ := ofFilter_eq_ok.mp passed
    simp [Demand.parts, text_filter, Statement.text, Statement.pieces, join_nameList, Part.fixed,
      Statement.Piece.text, ← String.toList_inj]

/-! ## Placeholders -/

theorem marks_filter (f : Filter) : f.parts.filterMap Part.mark = f.bindings := by
  have marks (c : Clause) : (c.condition.parts c.field).filterMap Part.mark =
      c.condition.operands.map fun value => (c.field, value) := by
    cases c.condition with
    | equals value => rfl
    | compare op value => rfl
    | member op values =>
      have inner := marks_joined ", " (values.map fun value => [⟨"?", some (c.field, value)⟩])
      simp only [Condition.parts, List.cons_append]
      rw [List.filterMap_cons, List.filterMap_append, inner, List.flatMap_map]
      simp [Part.fixed, Condition.operands, List.map_eq_flatMap]
  obtain ⟨clauses⟩ := f
  cases clauses with
  | nil => rfl
  | cons c rest =>
    have parts : Filter.parts ⟨c :: rest⟩ = .fixed " WHERE " ::
        Part.joined " AND " ((c :: rest).map fun c => c.condition.parts c.field) := rfl
    rw [parts, List.filterMap_cons, marks_joined, List.flatMap_map]
    exact congrArg (List.flatMap · (c :: rest)) (funext marks)

theorem marks_row (row : Row) (text : String × Value → String) :
    (Part.joined ", " (row.entries.map fun e => [⟨text e, some e⟩])).filterMap Part.mark =
      row.entries := by
  rw [marks_joined, List.flatMap_map]
  simp

/-- The placeholders belong to the columns that are set and the fields that are compared, in order. -/
theorem Demand.marks_parts (now : Int64) (demand : Demand) :
    (demand.parts now).filterMap Part.mark = demand.bindings now := by
  cases demand with
  | insert table row =>
    have rows := marks_row (Request.stamped now row) fun _ => "?"
    simp [Demand.parts, Demand.bindings, rows, Part.fixed]
  | update table filter row =>
    have rows := marks_row row fun e => e.1 ++ " = ?"
    simp [Demand.parts, Demand.bindings, rows, marks_filter, Part.fixed]
  | delete table filter =>
    simp [Demand.parts, Demand.bindings, marks_filter, Part.fixed]
  | select spec =>
    simp [Demand.parts, Demand.bindings, marks_filter, Part.fixed]

theorem values_filter (f : Filter) :
    f.bindings.map Prod.snd = f.clauses.flatMap fun c => c.condition.operands := by
  simp [Filter.bindings, List.map_flatMap, Function.comp_def]

theorem Demand.values_bindings {now : Int64} {demand : Demand} {call : Call}
    (accepted : demand.call now = .ok call) : call.params = (demand.bindings now).map Prod.snd := by
  cases demand with
  | insert table row =>
    obtain ⟨-, -, rfl⟩ := Request.insert_eq_ok.mp accepted
    rfl
  | update table filter row =>
    obtain ⟨-, -, predicate, passed, rfl⟩ := Request.update_eq_ok.mp accepted
    obtain ⟨-, rfl⟩ := ofFilter_eq_ok.mp passed
    rw [Demand.bindings, List.map_append, values_filter]
    rfl
  | delete table filter =>
    obtain ⟨-, predicate, passed, rfl⟩ := Request.delete_eq_ok.mp accepted
    obtain ⟨-, rfl⟩ := ofFilter_eq_ok.mp passed
    exact (values_filter filter).symm
  | select spec =>
    obtain ⟨-, -, predicate, passed, -, rfl⟩ := Request.select_eq_ok.mp accepted
    obtain ⟨-, rfl⟩ := ofFilter_eq_ok.mp passed
    exact (values_filter spec.filter).symm

/-- The part has as many placeholders as marks. -/
def Part.Even (part : Part) : Prop := part.text.toList.count '?' = part.mark.toList.length

theorem count_name {name : String} (named : isIdentifier name = true ∨ name = "*") :
    name.toList.count '?' = 0 := by
  rcases named with identifier | rfl
  · have word := Statement.isWord_of_isIdentifier identifier
    simp only [Statement.isWord, Bool.and_eq_true, List.all_eq_true] at word
    refine List.count_eq_zero.mpr fun member => ?_
    exact absurd (word.2 _ member) (by decide)
  · decide

theorem count_names {names : List String}
    (named : ∀ name ∈ names, isIdentifier name = true ∨ name = "*") :
    (", ".intercalate names).toList.count '?' = 0 := by
  induction names with
  | nil => rfl
  | cons name rest ih =>
    rw [List.forall_mem_cons] at named
    cases rest with
    | nil => simpa using count_name named.1
    | cons next rest =>
      simp [-String.toList_intercalate, String.intercalate_cons_cons, count_name named.1, ih named.2]

theorem even_joined {separator : String} (blank : separator.toList.count '?' = 0)
    {rows : List (List Part)} (even : ∀ row ∈ rows, ∀ part ∈ row, part.Even) :
    ∀ part ∈ Part.joined separator rows, part.Even := by
  intro part member
  rcases mem_joined member with rfl | ⟨row, present, here⟩
  · exact blank
  · exact even row present part here

theorem even_filter {f : Filter} (named : ∀ c ∈ f.clauses, isIdentifier c.field = true) :
    ∀ part ∈ f.parts, part.Even := by
  have clause (c : Clause) (identifier : isIdentifier c.field = true) :
      ∀ part ∈ c.condition.parts c.field, part.Even := by
    have field := count_name (.inl identifier)
    cases c.condition with
    | equals value => simp [Condition.parts, Part.Even, field]
    | compare op value => cases op <;> simp [Condition.parts, Part.Even, field, CompareOp.sql]
    | member op values =>
      simp only [Condition.parts, List.cons_append, List.forall_mem_cons, List.forall_mem_append]
      refine ⟨?_, even_joined rfl ?_, rfl, List.forall_mem_nil _⟩
      · cases op <;> simp [Part.fixed, Part.Even, field, MemberOp.sql]
      · intro row member
        obtain ⟨value, -, rfl⟩ := List.mem_map.mp member
        simp [Part.Even]
  unfold Filter.parts
  split
  · exact List.forall_mem_nil _
  · refine List.forall_mem_cons.mpr ⟨rfl, even_joined rfl fun row member => ?_⟩
    obtain ⟨c, present, rfl⟩ := List.mem_map.mp member
    exact clause c (named c present)

theorem count_order {keys : List SortKey} (named : ∀ k ∈ keys, isIdentifier k.column = true) :
    (String.join ((Statement.orderPieces keys).map Statement.Piece.text)).toList.count '?' = 0 := by
  have pieces : ∀ p ∈ Statement.orderPieces keys, '?' ∉ p.text.toList := by
    unfold Statement.orderPieces
    split
    · exact List.forall_mem_nil _
    · refine List.forall_mem_cons.mpr ⟨by decide, Statement.forall_separated (by decide) ?_⟩
      intro row member
      obtain ⟨k, present, rfl⟩ := List.mem_map.mp member
      have name := List.count_eq_zero.mp (count_name (.inl (named k present)))
      cases direction : k.direction <;>
        simp [Statement.Piece.text, Direction.sql, name]
  refine List.count_eq_zero.mpr fun member => ?_
  rw [String.toList_join, List.flatMap_map] at member
  obtain ⟨p, present, here⟩ := List.mem_flatMap.mp member
  exact pieces p present here

theorem projection_named {columns : List String}
    (checked : Request.checkProjection [] columns = .ok ()) :
    ∀ name ∈ Request.projection columns, isIdentifier name = true ∨ name = "*" := by
  unfold Request.projection
  split
  · simp
  · exact fun name member => ((checkProjection_eq_ok.mp checked).1 name member).symm

/-- There is a placeholder in a part if it is marked, and no other. -/
theorem Demand.even_parts {now : Int64} {demand : Demand} {call : Call}
    (accepted : demand.call now = .ok call) : ∀ part ∈ demand.parts now, part.Even := by
  cases demand with
  | insert table row =>
    obtain ⟨checked, checked', -⟩ := Request.insert_eq_ok.mp accepted
    have table' := count_name (.inl (checkName_eq_ok.mp checked))
    have names := count_names fun name member => .inl (checkNames_eq_ok.mp checked' name member)
    simp only [Demand.parts, List.cons_append, List.forall_mem_cons, List.forall_mem_append]
    refine ⟨?_, even_joined rfl ?_, rfl, List.forall_mem_nil _⟩
    · simp [-String.toList_intercalate, Part.fixed, Part.Even, table', names]
    · intro row member
      obtain ⟨e, -, rfl⟩ := List.mem_map.mp member
      simp [Part.Even]
  | update table filter row =>
    obtain ⟨checked, checked', predicate, passed, -⟩ := Request.update_eq_ok.mp accepted
    have table' := count_name (.inl (checkName_eq_ok.mp checked))
    simp only [Demand.parts, List.cons_append, List.forall_mem_cons, List.forall_mem_append]
    refine ⟨?_, even_joined rfl ?_, even_filter (ofFilter_eq_ok.mp passed).1⟩
    · simp [Part.fixed, Part.Even, table']
    · intro assigns member
      obtain ⟨e, present, rfl⟩ := List.mem_map.mp member
      have name : e.1 ∈ row.names := List.mem_map_of_mem present
      simp [Part.Even, count_name (.inl (checkNames_eq_ok.mp checked' e.1 name))]
  | delete table filter =>
    obtain ⟨checked, predicate, passed, -⟩ := Request.delete_eq_ok.mp accepted
    have table' := count_name (.inl (checkName_eq_ok.mp checked))
    refine List.forall_mem_cons.mpr ⟨?_, even_filter (ofFilter_eq_ok.mp passed).1⟩
    simp [Part.fixed, Part.Even, table']
  | select spec =>
    obtain ⟨checked, checked', predicate, passed, checked'', -⟩ := Request.select_eq_ok.mp accepted
    have table' := count_name (.inl (checkName_eq_ok.mp checked))
    have names := count_names (projection_named checked')
    have order := count_order fun k member =>
      checkNames_eq_ok.mp checked'' k.column (List.mem_map_of_mem member)
    simp only [Demand.parts, List.cons_append, List.forall_mem_cons, List.forall_mem_append]
    refine ⟨?_, even_filter (ofFilter_eq_ok.mp passed).1, order, List.forall_mem_nil _⟩
    simp [-String.toList_intercalate, Part.fixed, Part.Even, table', names]

/-- There are as many placeholders in parts as marks. -/
theorem count_parts {parts : List Part} (even : ∀ part ∈ parts, part.Even) :
    (String.join (parts.map Part.text)).toList.count '?' = (parts.filterMap Part.mark).length := by
  induction parts with
  | nil => rfl
  | cons part rest ih =>
    rw [List.forall_mem_cons] at even
    rw [List.map_cons, String.join_cons, String.toList_append, List.count_append, even.1, ih even.2,
      List.filterMap_cons]
    cases part.mark with
    | none => simp
    | some mark => simp [Nat.add_comm]

/-! ## Decoding -/

theorem names_stamped (now : Int64) (row : Row) : (Request.stamped now row).names ≠ [] := by
  show (Ordered.place addedColumn (.integer now) row.entries).map Prod.fst ≠ []
  rw [Ordered.names_place]
  split
  · rename_i present
    exact List.ne_nil_of_mem present
  · simp

/-- A row of names and values is the row that they were taken from, whatever values follow. -/
theorem ofList_names (row : Row) (more : List Value) :
    Ordered.ofList (row.names.zip ((row.values ++ more).take row.names.length)) = row := by
  have size : row.names.length = row.values.length := by simp [Ordered.names, Ordered.values]
  have whole := Ordered.ofList_zip row []
  rw [size, List.take_left', ← List.append_nil row.values]
  · exact whole
  · rfl

section

variable {filter : Filter} (named : ∀ c ∈ filter.clauses, isIdentifier c.field = true)

include named

theorem words_filter : ∀ t ∈ filter.clauses.map fun c => (⟨c.field, c.condition.testOp⟩ : Test),
    Statement.isWord t.field = true := by
  intro t member
  obtain ⟨c, present, rfl⟩ := List.mem_map.mp member
  exact Statement.isWord_of_isIdentifier (named c present)

theorem fields_filter : ∀ t ∈ filter.clauses.map fun c => (⟨c.field, c.condition.testOp⟩ : Test),
    t.field ≠ "*" := fun t member => Statement.word_ne_star (words_filter named t member)

end

theorem decode_insert {now : Int64} {table : String} {row : Row} {call : Call}
    (accepted : Request.insert now table row = .ok call) :
    decode? call.statement.text call.params = some (.insert table (Request.stamped now row)) := by
  obtain ⟨checked, checked', rfl⟩ := Request.insert_eq_ok.mp accepted
  have word := Statement.isWord_of_isIdentifier (checkName_eq_ok.mp checked)
  have read : Statement.read? (Statement.insert table (Request.stamped now row).names).text =
      some (.insert table (Request.stamped now row).names) := by
    refine Statement.read_text (by simp) ?_ (Statement.ofLexemes_insert word (names_stamped now row))
    rw [Statement.names_eq]
    refine List.forall_mem_cons.mpr ⟨.inl word, fun name member => .inl ?_⟩
    exact Statement.isWord_of_isIdentifier (checkNames_eq_ok.mp checked' name member)
  have size : (Request.stamped now row).names.length = (Request.stamped now row).values.length := by
    simp [Ordered.names, Ordered.values]
  have whole := Ordered.ofList_zip (Request.stamped now row) []
  rw [List.append_nil] at whole
  rw [decode?, read, Option.bind_some, Statement.meaning?, if_pos size, whole]

theorem decode_update {table : String} {filter : Filter} {row : Row} {call : Call}
    (accepted : Request.update table filter row = .ok call) (some' : row.names ≠ []) :
    decode? call.statement.text call.params = some (.update table filter.compared row) := by
  obtain ⟨checked, checked', predicate, passed, rfl⟩ := Request.update_eq_ok.mp accepted
  obtain ⟨named, rfl⟩ := ofFilter_eq_ok.mp passed
  have word := Statement.isWord_of_isIdentifier (checkName_eq_ok.mp checked)
  have words (name : String) (member : name ∈ row.names) :=
    Statement.isWord_of_isIdentifier (checkNames_eq_ok.mp checked' name member)
  have read := Statement.ofLexemes_update word some'
    (fun name member => Statement.word_ne_star (words name member)) (fields_filter named)
  have read := Statement.read_text (by simp) ?_ read
  · have size : row.names.length = row.values.length := by simp [Ordered.names, Ordered.values]
    rw [decode?, read, Option.bind_some, Statement.meaning?, if_pos (by simp [size]), ofList_names, size,
      List.drop_left', fill_clauses]
    · rfl
    · rfl
  · rw [Statement.names_eq]
    simp only [List.forall_mem_cons, List.forall_mem_append, List.forall_mem_map]
    exact ⟨.inl word, fun name member => .inl (words name member),
      fun c member => .inl (Statement.isWord_of_isIdentifier (named c member))⟩

theorem decode_delete {table : String} {filter : Filter} {call : Call}
    (accepted : Request.delete table filter = .ok call) :
    decode? call.statement.text call.params = some (.delete table filter.compared) := by
  obtain ⟨checked, predicate, passed, rfl⟩ := Request.delete_eq_ok.mp accepted
  obtain ⟨named, rfl⟩ := ofFilter_eq_ok.mp passed
  have word := Statement.isWord_of_isIdentifier (checkName_eq_ok.mp checked)
  have read := Statement.read_text (by simp) ?_ (Statement.ofLexemes_delete word (fields_filter named))
  · rw [decode?, read, Option.bind_some, Statement.meaning?, fill_clauses]
    rfl
  · rw [Statement.names_eq]
    simp only [List.forall_mem_cons, List.forall_mem_map]
    exact ⟨.inl word, fun c member => .inl (Statement.isWord_of_isIdentifier (named c member))⟩

theorem decode_select {spec : QuerySpec} {call : Call} (accepted : Request.select spec = .ok call) :
    decode? call.statement.text call.params =
      some (.select spec.table (Request.projection spec.columns) spec.filter.compared spec.order) := by
  obtain ⟨checked, checked', predicate, passed, checked'', rfl⟩ := Request.select_eq_ok.mp accepted
  obtain ⟨named, rfl⟩ := ofFilter_eq_ok.mp passed
  have word := Statement.isWord_of_isIdentifier (checkName_eq_ok.mp checked)
  have keys (k : SortKey) (member : k ∈ spec.order.keys) : Statement.isWord k.column = true :=
    Statement.isWord_of_isIdentifier (checkNames_eq_ok.mp checked'' k.column (List.mem_map_of_mem member))
  have some' : Request.projection spec.columns ≠ [] := by
    unfold Request.projection
    split
    · simp
    · rename_i some'
      exact fun none => some' (List.isEmpty_iff.mpr none)
  have read := Statement.ofLexemes_select some' word (fields_filter named)
    fun k member => Statement.word_ne_star (keys k member)
  have read := Statement.read_text (by simp) ?_ read
  · rw [decode?, read, Option.bind_some, Statement.meaning?, fill_clauses]
    rfl
  · rw [Statement.names_eq]
    simp only [List.forall_mem_cons, List.forall_mem_append, List.forall_mem_map]
    refine ⟨fun name member => ?_, .inl word,
      fun c member => .inl (Statement.isWord_of_isIdentifier (named c member)),
      fun k member => .inl (keys k member)⟩
    exact (projection_named checked' name member).imp_left Statement.isWord_of_isIdentifier

/-- What is sent for a request is decoded as that request. -/
theorem Demand.decode {now : Int64} {demand : Demand} {call : Call}
    (accepted : demand.call now = .ok call) (definite : demand.Definite) :
    decode? call.statement.text call.params = some (demand.meaning now) := by
  cases demand with
  | insert table row => exact decode_insert accepted
  | update table filter row => exact decode_update accepted definite
  | delete table filter => exact decode_delete accepted
  | select spec => exact decode_select accepted

/-- Asking for an accepted request sends its call. -/
theorem Demand.sends {σ : Type} (backend : Backend σ) {demand : Demand} {call : Call} (s : Session σ)
    (accepted : demand.call s.now = .ok call) (context : Context) :
    ∃ next, s.ask backend context demand.command =
      (s.record (.asked demand.command), [.send call next]) := by
  have accepted : demand.call (s.record (.asked demand.command)).now = .ok call := accepted
  refine ⟨demand.next context, ?_⟩
  rw [Session.ask_operate backend s context demand.calls, Session.operate, accepted, Session.request]

/-- The text and the parameters that are sent determine the request. The text is cut into parts, each of
which has at most one placeholder, and then names the column or the field of its value. -/
theorem statement_determines {now : Int64} {demand : Demand} {call : Call}
    (accepted : demand.call now = .ok call) (definite : demand.Definite) :
    decode? call.statement.text call.params = some (demand.meaning now) ∧
    (call.statement.text = String.join ((demand.parts now).map Part.text) ∧
      (∀ part ∈ demand.parts now, part.text.toList.count '?' = part.mark.toList.length) ∧
      (demand.parts now).filterMap Part.mark = demand.bindings now ∧
      call.params = (demand.bindings now).map Prod.snd) ∧
    call.statement.text.toList.count '?' = call.params.length ∧
    (∀ now' other call', Demand.call now' other = .ok call' → other.Definite →
      call'.statement.text = call.statement.text → call'.params = call.params →
        other.meaning now' = demand.meaning now) ∧
    ∀ {σ : Type} (backend : Backend σ) (s : Session σ) context, s.now = now →
      ∃ next, s.ask backend context demand.command =
        (s.record (.asked demand.command), [.send call next]) := by
  have decoded := Demand.decode accepted definite
  have even := Demand.even_parts accepted
  have text := Demand.text_parts accepted
  have marks := Demand.marks_parts now demand
  have values := Demand.values_bindings accepted
  refine ⟨decoded, ⟨text, even, marks, values⟩, ?_, ?_, ?_⟩
  · rw [text, count_parts even, marks, values, List.length_map]
  · -- What one function reads from the same text and parameters is the same.
    intro now' other call' accepted' definite' sameText sameParams
    have decoded' := Demand.decode accepted' definite'
    rw [sameText, sameParams, decoded] at decoded'
    exact (Option.some.inj decoded').symm
  · rintro σ backend s context rfl
    exact Demand.sends backend s accepted context

/-- A request whose names are words that stand at other places for themselves. -/
def wordy : Demand :=
  .update "WHERE" ⟨[⟨"AND", .member .notIn [.integer 1, .text "IN"]⟩, ⟨"ORDER", .equals (.text "?")⟩]⟩
    (.ofList [("SET", .null), ("FROM", .integer 2)])

/-- What is sent for it. -/
def wordyCall : Call where
  kind := .run
  statement := .update "WHERE" ["SET", "FROM"] [⟨"AND", .member .notIn 2⟩, ⟨"ORDER", .compare .eq⟩]
  params := [.null, .integer 2, .integer 1, .text "IN", .text "?"]

theorem wordy_determined :
    (wordy.call 0 = .ok wordyCall ∧ wordy.Definite ∧ wordyCall.statement.text =
      "UPDATE WHERE SET SET = ?, FROM = ? WHERE AND NOT IN (?, ?) AND ORDER = ?") ∧
    decode? wordyCall.statement.text wordyCall.params = some (wordy.meaning 0) ∧
    (wordyCall.statement.text = String.join ((wordy.parts 0).map Part.text) ∧
      (∀ part ∈ wordy.parts 0, part.text.toList.count '?' = part.mark.toList.length) ∧
      (wordy.parts 0).filterMap Part.mark = wordy.bindings 0 ∧
      wordyCall.params = (wordy.bindings 0).map Prod.snd) ∧
    wordyCall.statement.text.toList.count '?' = wordyCall.params.length ∧
    (∀ now' other call', Demand.call now' other = .ok call' → other.Definite →
      call'.statement.text = wordyCall.statement.text → call'.params = wordyCall.params →
        other.meaning now' = wordy.meaning 0) ∧
    ∀ {σ : Type} (backend : Backend σ) (s : Session σ) context, s.now = 0 →
      ∃ next, s.ask backend context wordy.command =
        (s.record (.asked wordy.command), [.send wordyCall next]) := by
  have accepted : wordy.call 0 = .ok wordyCall := by decide
  have definite : wordy.Definite := by
    simp [wordy, Demand.Definite, Ordered.names, Ordered.ofList, Ordered.insert, Ordered.place,
      Ordered.empty]
  exact ⟨⟨accepted, definite, by decide⟩, statement_determines accepted definite⟩

end LiveTable
