import LiveTable.Proofs.Storages

/-!
# Names of indexes

The name of an index joins the names of its table and its column by an underscore, which may stand in
both. So one name can belong to several pairs: it tells where the pairs begin and end, but not where they
part. Two pairs share a name if and only if one of them becomes the other when the last words of its table
become the first words of its column. A statement that creates an index does nothing if there is one of its
name, so an index that the caller asks for can be missing if there is one on such a pair.
-/

namespace LiveTable

/-- A table and a column have one index name with another pair, whose table is shorter: the words at the
end of the table stand at the beginning of the other column. -/
def Shifted (long short : String × String) : Prop :=
  ∃ words, long.1 = short.1 ++ "_" ++ words ∧ short.2 = words ++ "_" ++ long.2

/-- Two pairs of a table and a column share the name of their indexes. -/
def Confused (a b : String × String) : Prop := a = b ∨ Shifted a b ∨ Shifted b a

/-- A pair of names in small letters. -/
def lowered (pair : String × String) : String × String := (Text.lower pair.1, Text.lower pair.2)

/-- The names of indexes in the text of a statement. -/
def Statement.indexNames (s : Statement) : List String :=
  s.pieces.filterMap fun
    | .name .index name => some name
    | _ => none

/-! ## Pairs with one name -/

/-- Where two rows of characters with one separator each are the same, the separators are at the same
place, or what is between them belongs to the front of one row and to the back of the other. -/
theorem joined_eq_iff {α : Type} {separator : α} {a b c d : List α} :
    a ++ separator :: b = c ++ separator :: d ↔ (a = c ∧ b = d) ∨
      (∃ words, a = c ++ separator :: words ∧ d = words ++ separator :: b) ∨
      ∃ words, c = a ++ separator :: words ∧ b = words ++ separator :: d := by
  constructor
  · intro same
    rcases List.append_eq_append_iff.mp same with ⟨rest, front, back⟩ | ⟨rest, front, back⟩
    · cases rest with
      | nil =>
        simp only [List.append_nil, List.nil_append, List.cons.injEq, true_and] at front back
        exact .inl ⟨front.symm, back⟩
      | cons first words =>
        simp only [List.cons_append, List.cons.injEq] at back
        obtain ⟨rfl, back⟩ := back
        exact .inr (.inr ⟨words, front, back⟩)
    · cases rest with
      | nil =>
        simp only [List.append_nil, List.nil_append, List.cons.injEq, true_and] at front back
        exact .inl ⟨front, back.symm⟩
      | cons first words =>
        simp only [List.cons_append, List.cons.injEq] at back
        obtain ⟨rfl, back⟩ := back
        exact .inr (.inl ⟨words, front, back⟩)
  · rintro (⟨rfl, rfl⟩ | ⟨words, rfl, rfl⟩ | ⟨words, rfl, rfl⟩) <;> simp

theorem shifted_iff {long short : String × String} : Shifted long short ↔
    ∃ words : List Char, long.1.toList = short.1.toList ++ '_' :: words ∧
      short.2.toList = words ++ '_' :: long.2.toList := by
  have join (a b : String) : (a ++ "_" ++ b).toList = a.toList ++ '_' :: b.toList := by simp
  constructor
  · rintro ⟨words, table, column⟩
    exact ⟨words.toList, by rw [table, join], by rw [column, join]⟩
  · rintro ⟨words, table, column⟩
    refine ⟨.ofList words, ?_, ?_⟩ <;> rw [← String.toList_inj, join, String.toList_ofList]
    · exact table
    · exact column

/-- Two pairs have one index name exactly if they can be confused. -/
theorem indexName_eq_iff {table column table' column' : String} :
    Statement.indexName table column = Statement.indexName table' column' ↔
      Confused (table, column) (table', column') := by
  rw [Confused, shifted_iff, shifted_iff, ← String.toList_inj, Prod.mk.injEq, ← String.toList_inj,
    ← String.toList_inj, ← joined_eq_iff]
  simp [Statement.indexName]

theorem lower_append (a b : String) : Text.lower (a ++ b) = Text.lower a ++ Text.lower b := by
  simp [Text.lower]

/-- A database takes two index names for one exactly if the pairs can be confused when the case of letters
is left out. -/
theorem sameName_indexName {table column table' column' : String} :
    Text.sameName (Statement.indexName table column) (Statement.indexName table' column') = true ↔
      Confused (lowered (table, column)) (lowered (table', column')) := by
  have lower_indexName (table column : String) : Text.lower (Statement.indexName table column) =
      Statement.indexName (Text.lower table) (Text.lower column) := by
    simp only [Statement.indexName, lower_append]
    rfl
  rw [Text.sameName, beq_iff_eq, lower_indexName, lower_indexName, indexName_eq_iff]
  rfl

/-! ## The indexes of a storage -/

namespace Database.Index

/-- The index has the name that belongs to its table and its column. -/
def Named (i : Index) : Prop := Text.sameName i.name (Statement.indexName i.table i.column) = true

/-- The index is on a column of a table. -/
def IsOn (i : Index) (table column : String) : Prop :=
  Text.sameName i.table table = true ∧ Text.sameName i.column column = true

end Database.Index

/-- A storage lists the indexes that statements created, each with the column that its statement names, and
knows the columns of its tables. An index is created if there is none of its name. -/
structure Backend.Lists {σ : Type} (backend : Backend σ) (has : σ → String → String → Prop)
    (indexes : σ → List Database.Index) : Prop where
  /-- A new index has the names of the statement that creates it; no other statement of the store adds one. -/
  adds : ∀ call, call.Made → (∀ text, call.statement ≠ .verbatim text) → ∀ storage,
    ∀ i ∈ indexes (backend.answer call storage).2, i ∈ indexes storage ∨
      ∃ table column, call.statement = .createIndex table column ∧
        i.name = Statement.indexName table column ∧ i.IsOn table column
  /-- Once the statement is done for a column that there is, there is an index of the name. -/
  ensures : ∀ table column call, Request.createIndex table column = .ok call → ∀ storage,
    has storage table column → (backend.answer call storage).1 = .done →
      ∃ i ∈ indexes (backend.answer call storage).2,
        Text.sameName i.name (Statement.indexName table column) = true
  reopens : ∀ old new, backend.reopen old = .ok new → ∀ i ∈ indexes new, i ∈ indexes old

/-- An index on a column of a table that has their name is named by its own table and column. -/
theorem Database.Index.IsOn.named {i : Database.Index} {table column : String} (on : i.IsOn table column)
    (name : i.name = Statement.indexName table column) : i.Named := by
  obtain ⟨table', column'⟩ := on
  rw [Text.sameName, beq_iff_eq] at table' column'
  rw [Database.Index.Named, name]
  exact sameName_indexName.mpr (.inl (Prod.ext table'.symm column'.symm))

section Lists

variable {σ : Type} {backend : Backend σ} {has : σ → String → String → Prop}
  {indexes : σ → List Database.Index}

/-- Every call of the store keeps indexes named. -/
theorem Backend.Lists.named (lists : backend.Lists has indexes) {call : Call} (made : call.Made)
    (own : ∀ text, call.statement ≠ .verbatim text) {storage : σ} (named : ∀ i ∈ indexes storage, i.Named) :
    ∀ i ∈ indexes (backend.answer call storage).2, i.Named := by
  intro i member
  rcases lists.adds call made own storage i member with old | ⟨table, column, -, name, on⟩
  · exact named i old
  · exact on.named name

/-- A request that succeeds for a column that there is leaves an index of its name: a new one on the column,
or one that was there, on a pair that can be confused with it. -/
theorem Backend.Lists.covers (lists : backend.Lists has indexes) {table column : String} {call : Call}
    (creates : Request.createIndex table column = .ok call) {storage : σ}
    (named : ∀ i ∈ indexes storage, i.Named) (there : has storage table column)
    (done : (backend.answer call storage).1 = .done) : ∃ i ∈ indexes (backend.answer call storage).2,
      Text.sameName i.name (Statement.indexName table column) = true ∧
        (i.IsOn table column ∨
          i ∈ indexes storage ∧ Confused (lowered (i.table, i.column)) (lowered (table, column))) := by
  obtain ⟨i, member, same⟩ := lists.ensures table column call creates storage there done
  have made : call.Made := .createIndex creates
  obtain ⟨-, -, rfl⟩ := Request.createIndex_eq_ok.mp creates
  refine ⟨i, member, same, ?_⟩
  rcases lists.adds _ made (fun _ => nofun) storage i member with old | ⟨table', column', statement, -, on⟩
  · exact .inr ⟨old, sameName_indexName.mp (sameName_trans (sameName_symm (named i old)) same)⟩
  · cases statement
    exact .inl on

end Lists

/-- A storage that executes statements lists the indexes of its content. -/
theorem Backend.Executes.lists {σ : Type} {backend : Backend σ} {content : σ → Database.Content}
    (executes : backend.Executes content) : backend.Lists
      (fun storage table column => ∃ t, (content storage).find? table = some t ∧
        (t.columnIndex? column).isSome = true)
      (fun storage => (content storage).indexes) where
  adds call made own storage i member := by
    rcases executes.answers call made own storage with ⟨-, same⟩ | executed
    · rw [same] at member
      exact .inl member
    · generalize call.statement = s, (backend.answer call storage).1 = answer,
        content (backend.answer call storage).2 = c' at executed member
      cases executed with
      | indexCreated found proper free =>
        rcases List.mem_append.mp member with old | new
        · exact .inl old
        · rw [List.mem_singleton.mp new]
          exact .inr ⟨_, _, rfl, rfl, (Database.find?_proper found proper).2, by simp [Text.sameName]⟩
      | tableDropped found => exact .inl (List.mem_filter.mp member).1
      | inserted found resolves puts notes =>
        subst puts
        rcases notes with rfl | ⟨n, rfl⟩
        · exact .inl member
        · rw [Database.indexes_setSequence] at member
          exact .inl member
      | _ => exact .inl member
  ensures table column call creates storage there done := by
    have made : call.Made := .createIndex creates
    obtain ⟨-, -, rfl⟩ := Request.createIndex_eq_ok.mp creates
    have own (text : String) : Statement.createIndex table column ≠ .verbatim text := by simp
    rcases executes.answers _ made own storage with
      ⟨⟨message, failed⟩, -⟩ | executed
    · rw [failed] at done
      cases done
    · generalize (backend.answer _ storage).1 = answer, content (backend.answer _ storage).2 = c'
        at executed ⊢
      cases executed with
      | indexKept found taken =>
        have same := List.find?_some taken
        exact ⟨_, List.mem_of_find?_eq_some taken, same⟩
      | indexCreated found proper free =>
        exact ⟨_, List.mem_append_right _ (List.mem_singleton_self _), by simp [Text.sameName]⟩
      | asked reads => cases reads
  reopens old new opens i member := by
    rcases executes.reopens old new opens with same | none
    · exact same ▸ member
    · rw [none] at member
      cases member

namespace Session

variable {σ : Type} {backend : Backend σ} {p : Progress σ}

/-- Two requests for an index have one name for it exactly if they are for the same pair of a table and a
column, or for two pairs that can be confused. And if in a run whose statements are all sent by the store a
request succeeds for a column that there is, there is an index of its name afterwards: it is on the table and
the column of the request, or it was there before and is on a pair that can be confused with them, as far as
names are told apart. -/
theorem index_names_told_apart {has : σ → String → String → Prop} {indexes : σ → List Database.Index}
    {storage : σ} {scripted : Bool} {now : Int64} (lists : backend.Lists has indexes)
    (run : Later backend (.start storage scripted now, []) p) (first : ∀ i ∈ indexes storage, i.Named)
    (own : ∀ call, .sent call ∈ p.1.history → ∀ text, call.statement ≠ .verbatim text)
    {table column : String} {call : Call} (creates : Request.createIndex table column = .ok call) :
    (∀ table' column' call', Request.createIndex table' column' = .ok call' →
      (call.statement.indexNames = call'.statement.indexNames ↔
        Confused (table, column) (table', column'))) ∧
    (has p.1.storage table column → (backend.answer call p.1.storage).1 = .done →
      ∃ i ∈ indexes (backend.answer call p.1.storage).2,
        Text.sameName i.name (Statement.indexName table column) = true ∧
          (i.IsOn table column ∨ i ∈ indexes p.1.storage ∧
            Confused (lowered (i.table, i.column)) (lowered (table, column)))) := by
  constructor
  · obtain ⟨-, -, rfl⟩ := Request.createIndex_eq_ok.mp creates
    intro table' column' call' creates'
    obtain ⟨-, -, rfl⟩ := Request.createIndex_eq_ok.mp creates'
    rw [← indexName_eq_iff]
    simp [Statement.indexNames, Statement.pieces]
  · have named : ∀ i ∈ indexes p.1.storage, i.Named := by
      refine run.maintains (fun storage => ∀ i ∈ indexes storage, i.Named)
        (.start storage scripted now) ?_ ?_ first
      · exact fun old new opens named i member => named i (lists.reopens old new opens i member)
      · exact fun storage call made sent named => lists.named made (own call sent) named
    exact lists.covers creates named

/-- Two tables that can be confused with their columns, and an index on one of them. -/
def notesAndParts : Progress Database := play Database.memoryBackend 20 (.start .inMemory true 0, []) [
  .createTable "note" ["part_id:integer"],
  .createTable "note_part" ["id:integer"],
  .createIndex "note_part" "id"]

/-- The request for an index on the other table. -/
def partIndex : Call := ⟨.execute, .createIndex "note" "part_id", []⟩

theorem partIndex_told_apart :
    Database.memoryBackend.Lists (fun db table column => ∃ t, db.content.find? table = some t ∧
      (t.columnIndex? column).isSome = true) (·.content.indexes) ∧
    Later Database.memoryBackend (.start .inMemory true 0, []) notesAndParts ∧
    Request.createIndex "note" "part_id" = .ok partIndex ∧
    (Database.memoryBackend.answer partIndex notesAndParts.1.storage).1 = .done ∧
    (∀ table' column' call', Request.createIndex table' column' = .ok call' →
      (partIndex.statement.indexNames = call'.statement.indexNames ↔
        Confused ("note", "part_id") (table', column'))) ∧
    ∃ i ∈ (Database.memoryBackend.answer partIndex notesAndParts.1.storage).2.content.indexes,
      Text.sameName i.name (Statement.indexName "note" "part_id") = true ∧
        (i.IsOn "note" "part_id" ∨ i ∈ notesAndParts.1.storage.content.indexes ∧
          Confused (lowered (i.table, i.column)) (lowered ("note", "part_id"))) := by
  have run : Later Database.memoryBackend (.start .inMemory true 0, []) notesAndParts := later_play ..
  have own : ∀ call, .sent call ∈ notesAndParts.1.history → ∀ text, call.statement ≠ .verbatim text := by
    have calls : notesAndParts.1.history.filterMap Happening.sent? = [
        ⟨.execute, .createIndex "note_part" "id", []⟩,
        ⟨.execute, .createTable "note_part" [("id", .plain .integer), ("added", .plain .integer)], []⟩,
        ⟨.execute, .createTable "note" [("part_id", .plain .integer), ("added", .plain .integer)], []⟩] := by
      decide +kernel
    intro call sent
    rw [← mem_sent, calls] at sent
    simp only [List.mem_cons, List.not_mem_nil, or_false] at sent
    rcases sent with rfl | rfl | rfl <;> exact fun _ => nofun
  have creates : Request.createIndex "note" "part_id" = .ok partIndex := rfl
  have done : (Database.memoryBackend.answer partIndex notesAndParts.1.storage).1 = .done := by
    decide +kernel
  have there : ∃ t, notesAndParts.1.storage.content.find? "note" = some t ∧
      (t.columnIndex? "part_id").isSome = true := by
    have known : (notesAndParts.1.storage.content.find? "note").any
        (fun t => (t.columnIndex? "part_id").isSome) = true := by decide +kernel
    exact (Option.any_eq_true ..).mp known
  have apart := index_names_told_apart executes_memory.lists run (fun i none => nomatch none) own creates
  exact ⟨executes_memory.lists, run, creates, done, apart.1, apart.2 there done⟩

/-- The index of one table stands in the way of that of the other. The request for it succeeds, and nothing
is done. -/
theorem index_names_shared :
    ("note", "part_id") ≠ ("note_part", "id") ∧
    (∃ call, Request.createIndex "note" "part_id" = .ok partIndex ∧
      Request.createIndex "note_part" "id" = .ok call ∧
      partIndex.statement.indexNames = call.statement.indexNames) ∧
    notesAndParts.1.storage.content.tables.map (fun t => (t.name, t.columns.map (·.name))) =
      [("note", ["part_id", "added"]), ("note_part", ["id", "added"])] ∧
    notesAndParts.1.storage.content.indexes = [⟨"idx_note_part_id", "note_part", "id"⟩] ∧
    notesAndParts.1.storage.answer partIndex = (.done, notesAndParts.1.storage) := by
  refine ⟨by decide, ⟨_, rfl, rfl, by decide⟩, ?_, ?_, ?_⟩
  · decide +kernel
  · decide +kernel
  · decide +kernel

end Session

end LiveTable
