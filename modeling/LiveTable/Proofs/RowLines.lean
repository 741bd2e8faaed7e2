import LiveTable.CommandLine.Report
import LiveTable.Proofs.Writing

/-!
# Rows as lines

The rows of a selection are printed one below the other, each as the text of its document. The printed text falls
into the lines again, whatever stands in the names and values, and the line of a row without bytes and without
numbers that are not integers is read as the row. Bytes are printed as a list, which no column can hold, so a row
with bytes does not come back; a number that is not finite comes back as null.
-/

namespace LiveTable

/-! ## Lines -/

namespace Text

/-- What is printed of lines: each line with an end behind it. -/
def printed (lines : List String) : String := String.join (lines.map (· ++ "\n"))

theorem splitFrom_line {line : List Char} (single : '\n' ∉ line) (part rest : List Char) :
    splitFrom '\n' part (line ++ '\n' :: rest) = (part.reverse ++ line) :: splitFrom '\n' [] rest := by
  induction line generalizing part with
  | nil => simp [splitFrom]
  | cons c line ih =>
    rw [List.mem_cons, not_or] at single
    rw [List.cons_append, splitFrom, if_neg (Ne.symm single.1), ih single.2, List.reverse_cons, List.append_assoc,
      List.singleton_append]

/-- Printed lines are found again, and behind the last line end nothing is left. -/
theorem split_printed {lines : List String} (single : ∀ line ∈ lines, '\n' ∉ line.toList) :
    split '\n' (printed lines) = lines ++ [""] := by
  induction lines with
  | nil => rfl
  | cons line lines ih =>
    obtain ⟨own, others⟩ := List.forall_mem_cons.mp single
    have text : (printed (line :: lines)).toList = line.toList ++ '\n' :: (printed lines).toList := by
      simp [printed]
    rw [split, text, splitFrom_line own, List.map_cons, List.reverse_nil, List.nil_append, String.ofList_toList,
      ← split, ih others, List.cons_append]

end Text

/-! ## Values -/

namespace Value

/-- The value of a cell comes back as it is: it is null, an integer or a text. -/
def Plain : Value → Prop
  | .real _ | .blob _ => False
  | _ => True

/-- A number that is an integer or not finite, or no number. -/
def Settled : Value → Prop
  | .real x => x.isFinite = false
  | .blob _ => False
  | _ => True

/-- The value with null for every number that is not an integer. -/
def withoutReal : Value → Value
  | .real _ => .null
  | v => v

theorem bounded_toJson (v : Value) : v.toJson.Bounded := by
  cases v with
  | integer n =>
    have least := n.le_toInt
    have greatest := n.toInt_lt
    have half : (pow2 63 : Int) = 9223372036854775808 := rfl
    have whole : (pow2 64 : Int) = 18446744073709551616 := rfl
    rw [toJson, Json.Bounded, half, whole]
    omega
  | blob bytes =>
    rw [toJson, Json.Bounded, Json.boundedItems_iff]
    intro doc member
    obtain ⟨b, -, rfl⟩ := List.mem_map.mp member
    have greatest := b.toNat_lt
    have whole : (pow2 64 : Int) = 18446744073709551616 := rfl
    rw [Json.Bounded, whole]
    omega
  | _ => trivial

theorem depth_toJson (v : Value) : v.toJson.depth ≤ 1 := by
  cases v with
  | blob bytes =>
    rw [toJson, Json.depth]
    refine Nat.succ_le_succ (Json.itemsDepth_le fun doc member => ?_)
    obtain ⟨b, -, rfl⟩ := List.mem_map.mp member
    exact Nat.le_refl 0
  | _ => exact Nat.zero_le 1

/-- There are no names to merge in a value. -/
theorem merged_reread (v : Value) : v.toJson.reread.merged = v.toJson.reread := by
  cases v with
  | real x =>
    rcases Json.reread_real x with ⟨same, -⟩ | ⟨y, same, -⟩ <;> rw [toJson, same] <;> rfl
  | blob bytes =>
    have same : Json.mergedItems (Json.rereadItems (bytes.map fun b => .integer b.toNat)) =
        Json.rereadItems (bytes.map fun b => .integer b.toNat) := by
      induction bytes with
      | nil => rfl
      | cons b bytes ih =>
        rw [List.map_cons, Json.rereadItems, Json.mergedItems, ih]
        rfl
    rw [toJson, Json.reread, Json.merged, same]
  | _ => rfl

/-- What a value comes back as. -/
theorem ofJson?_reread {v : Value} (settled : v.Settled) : ofJson? v.toJson.reread = some v.withoutReal := by
  cases v with
  | integer n =>
    have fits : -pow2 63 ≤ n.toInt ∧ n.toInt < pow2 63 := ⟨n.le_toInt, n.toInt_lt⟩
    show some (if -pow2 63 ≤ n.toInt ∧ n.toInt < pow2 63 then integer (Int64.ofInt n.toInt)
      else real (.ofInt n.toInt)) = some (integer n)
    rw [if_pos fits, Int64.ofInt_toInt]
  | real x =>
    have infinite : x.isFinite = false := settled
    rw [toJson, Json.reread, infinite]
    rfl
  | blob bytes => exact settled.elim
  | _ => rfl

theorem ofJson?_reread_blob (bytes : List UInt8) : ofJson? (toJson (.blob bytes)).reread = none := by
  rw [toJson, Json.reread]
  rfl

end Value

/-! ## Rows -/

namespace Row

/-- A value of the row is a byte string. -/
def HasBytes (row : Row) : Prop := ∃ bytes, .blob bytes ∈ row.values

/-- Nulls, integers and texts only. -/
def Plain (row : Row) : Prop := ∀ v ∈ row.values, v.Plain

/-- Nulls, integers, texts and numbers that are not finite. -/
def Settled (row : Row) : Prop := ∀ v ∈ row.values, v.Settled

/-- The row with null for every number that is not an integer. -/
def withoutReals (row : Row) : Row where
  entries := row.entries.map fun e => (e.1, e.2.withoutReal)
  nodup := by simpa [Function.comp_def] using row.nodup

/-- The row that a line holds. -/
def ofLine? (line : String) : Option Row := (Json.read? line).bind ofJson?

theorem Plain.settled {row : Row} (plain : row.Plain) : row.Settled := by
  intro v member
  have own := plain v member
  cases v with
  | real x => exact own.elim
  | blob bytes => exact own
  | _ => trivial

theorem Plain.withoutReals {row : Row} (plain : row.Plain) : row.withoutReals = row := by
  have same : ∀ e ∈ row.entries, (e.1, e.2.withoutReal) = e := by
    intro e member
    have own := plain e.2 (List.mem_map_of_mem member)
    obtain ⟨name, v⟩ := e
    cases v with
    | real x => exact own.elim
    | _ => rfl
  exact Ordered.ext ((List.map_congr_left same).trans (List.map_id _))

theorem bounded_toJson (row : Row) : (toJson row).Bounded := by
  rw [toJson, Json.Bounded, Json.boundedMembers_iff]
  intro member inside
  obtain ⟨e, -, rfl⟩ := List.mem_map.mp inside
  exact e.2.bounded_toJson

theorem depth_toJson (row : Row) : (toJson row).depth ≤ 2 := by
  rw [toJson, Json.depth]
  refine Nat.succ_le_succ (Json.membersDepth_le fun member inside => ?_)
  obtain ⟨e, -, rfl⟩ := List.mem_map.mp inside
  exact e.2.depth_toJson

/-- The line of a row is read as the document with what its values are read as. -/
theorem read?_write (row : Row) :
    Json.read? (toJson row).write = some (.object (row.entries.map fun e => (e.1, e.2.toJson.reread))) := by
  have shallow : (toJson row).depth ≤ Json.maxDepth := row.depth_toJson.trans (by decide)
  have names : (([] ++ row.entries.map fun e => (e.1, e.2.toJson.reread) : List (String × Json)).map Prod.fst).Nodup := by
    simpa [Function.comp_def] using row.nodup
  rw [Json.read?_write row.bounded_toJson shallow, toJson, Json.reread, Json.rereadMembers_eq_map, List.map_map,
    Json.merged]
  have merged := Json.mergedMembers_nodup names
  simp only [Function.comp_def, merged, List.nil_append, List.map_map, Value.merged_reread]

theorem entriesOfJson?_map {entries : List (String × Value)} (settled : ∀ e ∈ entries, e.2.Settled) :
    entriesOfJson? (entries.map fun e => (e.1, e.2.toJson.reread)) =
      some (entries.map fun e => (e.1, e.2.withoutReal)) := by
  induction entries with
  | nil => rfl
  | cons e entries ih =>
    obtain ⟨own, others⟩ := List.forall_mem_cons.mp settled
    rw [List.map_cons, entriesOfJson?, Value.ofJson?_reread own, ih others]
    rfl

theorem entriesOfJson?_none {name : String} {json : Json} {members : List (String × Json)}
    (member : (name, json) ∈ members) (none' : Value.ofJson? json = none) : entriesOfJson? members = none := by
  induction members with
  | nil => cases member
  | cons first members ih =>
    obtain ⟨name', json'⟩ := first
    rw [entriesOfJson?]
    rcases List.mem_cons.mp member with own | later
    · cases own
      rw [none']
      rfl
    · rw [ih later]
      cases Value.ofJson? json' <;> rfl

/-- A row of settled values comes back with null for each number that is not finite. -/
theorem ofLine?_settled {row : Row} (settled : row.Settled) :
    ofLine? (toJson row).write = some row.withoutReals := by
  have own : ∀ e ∈ row.entries, e.2.Settled := fun e member => settled e.2 (List.mem_map_of_mem member)
  have entries := entriesOfJson?_map own
  rw [ofLine?, read?_write, Option.bind_some, ofJson?, entries]
  exact congrArg some row.withoutReals.ofList_entries

/-- The line of a row with bytes holds a document, and the document is no row. -/
theorem exists_document {row : Row} (bytes : row.HasBytes) :
    ∃ doc, Json.read? (toJson row).write = some doc ∧ ofJson? doc = none := by
  obtain ⟨bytes, member⟩ := bytes
  obtain ⟨e, inside, value⟩ := List.mem_map.mp member
  refine ⟨_, row.read?_write, ?_⟩
  have none' : Value.ofJson? e.2.toJson.reread = none := value ▸ Value.ofJson?_reread_blob bytes
  rw [ofJson?, entriesOfJson?_none (List.mem_map_of_mem (f := fun e => (e.1, e.2.toJson.reread)) inside) none']
  rfl

/-- The text of a row is one line. -/
theorem write_line (row : Row) : '\n' ∉ (toJson row).write.toList := (Json.cut_write _ row.bounded_toJson).line

end Row

namespace CommandLine

/-- The rows that a command finds are printed as one line each, and the printed text falls into these lines. If
the rows hold nulls, integers and texts only, the lines are read as the rows. The line of a row with bytes holds a
document that is no row, and a number that is not finite comes back as null. -/
theorem rows_returned (command : Command) (rows : List Row) :
    ∃ lines, Text.split '\n' (Text.printed (Report.ofOutcome command (.rows rows)).lines) = lines ++ [""] ∧
      lines.length = rows.length ∧
      ((∀ row ∈ rows, row.Plain) → lines.map Row.ofLine? = rows.map some) ∧
      (∀ p ∈ rows.zip lines, p.1.HasBytes → ∃ doc, Json.read? p.2 = some doc ∧ Row.ofJson? doc = none) ∧
      ∀ p ∈ rows.zip lines, p.1.Settled → Row.ofLine? p.2 = some p.1.withoutReals := by
  have zipped : ∀ p ∈ rows.zip (rows.map fun row => (Row.toJson row).write), p.2 = (Row.toJson p.1).write := by
    intro p member
    rw [← List.map_prod_left_eq_zip] at member
    obtain ⟨row, -, rfl⟩ := List.mem_map.mp member
    rfl
  refine ⟨rows.map fun row => (Row.toJson row).write, ?lines, by simp, ?plain, ?bytes, ?settled⟩
  case lines =>
    refine Text.split_printed fun line member => ?_
    obtain ⟨row, -, rfl⟩ := List.mem_map.mp member
    exact row.write_line
  case plain =>
    intro plain
    rw [List.map_map]
    refine List.map_congr_left fun row member => ?_
    rw [Function.comp_apply, Row.ofLine?_settled (plain row member).settled, (plain row member).withoutReals]
  case bytes =>
    intro p member bytes
    rw [zipped p member]
    exact Row.exists_document bytes
  case settled =>
    intro p member settled
    rw [zipped p member]
    exact Row.ofLine?_settled settled

/-- A row whose names and texts hold what a line cannot hold as it is, with the least and the greatest integer. -/
def hostileRow : Row where
  entries := [("a \"b\"\n", .text "\\ \x01 \r\n \t é"), ("", .text ""), ("least", .integer Int64.minValue),
    ("greatest", .integer Int64.maxValue), ("none", .null)]
  nodup := by decide

/-- A row with bytes beside the greatest finite number. -/
def bytesRow : Row where
  entries := [("top", .real ⟨0x7fefffffffffffff⟩), ("bytes", .blob [0, 255])]
  nodup := by decide

/-- A row with a number that is not finite. -/
def infiniteRow : Row where
  entries := [("low", .real (Binary64.infinity true)), ("one", .integer 1)]
  nodup := by decide

/-- The selection of every row of a table. -/
def everything : Command := .select "notes" [] (.value Filter.empty) (.value ⟨[]⟩)

/-- A row of nulls, integers and texts comes back from its line, and of two other rows one comes back with null and
one does not come back. -/
theorem hostileRow_returned :
    (∃ line, Text.split '\n' (Text.printed (Report.ofOutcome everything (.rows [hostileRow])).lines) = [line, ""] ∧
      Row.ofLine? line = some hostileRow) ∧
    ∃ first second, Text.split '\n'
        (Text.printed (Report.ofOutcome everything (.rows [bytesRow, infiniteRow])).lines) = [first, second, ""] ∧
      (∃ doc, Json.read? first = some doc ∧ Row.ofJson? doc = none) ∧
      Row.ofLine? second = some ⟨[("low", .null), ("one", .integer 1)], by decide⟩ := by
  constructor
  · obtain ⟨lines, split, length, plain, -, -⟩ := rows_returned everything [hostileRow]
    obtain ⟨line, rfl⟩ := List.length_eq_one_iff.mp length
    have every : ∀ row ∈ [hostileRow], row.Plain := by
      intro row member v inside
      obtain rfl := List.mem_singleton.mp member
      simp only [hostileRow, Ordered.values, List.map_cons, List.map_nil, List.mem_cons, List.not_mem_nil,
        or_false] at inside
      rcases inside with rfl | rfl | rfl | rfl | rfl <;> trivial
    exact ⟨line, split, by simpa using plain every⟩
  · obtain ⟨lines, split, length, -, bytes, settled⟩ := rows_returned everything [bytesRow, infiniteRow]
    obtain ⟨first, second, rfl⟩ := List.length_eq_two.mp length
    have has : bytesRow.HasBytes := ⟨[0, 255], by simp [bytesRow, Ordered.values]⟩
    have whole : infiniteRow.Settled := by
      have infinite : (Binary64.infinity true).isFinite = false := by decide
      simp [Row.Settled, infiniteRow, Ordered.values, Value.Settled, infinite]
    exact ⟨first, second, split, bytes (bytesRow, first) (by simp) has, settled (infiniteRow, second) (by simp) whole⟩

end CommandLine

end LiveTable
