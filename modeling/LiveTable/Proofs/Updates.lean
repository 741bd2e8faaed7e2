import LiveTable.Proofs.Conditions
import LiveTable.Proofs.Decoding
import LiveTable.Proofs.Twins
import LiveTable.Proofs.Validation

/-!
# The text of an update

An update names the table, then the columns that it assigns to, then the clauses that select the rows. Its
text has a form of its own, in which at least one column is assigned to. A row without columns passes every
check: what is sent for it has not this form, and a database refuses it.
-/

namespace LiveTable

/-- The text of a clause: a field, an operator, and the placeholders that the operator takes. -/
inductive IsClause : String → Prop
  | compare {field : String} (named : Plain field) (op : CompareOp) :
    IsClause (field ++ " " ++ op.sql ++ " ?")
  | member {field : String} (named : Plain field) (op : MemberOp) (count : Nat) :
    IsClause (field ++ " " ++ op.sql ++ " (" ++ ", ".intercalate (List.replicate count "?") ++ ")")

/-- The clauses at the end of a text, joined by AND; without clauses there is nothing. -/
def conditionText (clauses : List String) : String :=
  if clauses = [] then "" else " WHERE " ++ " AND ".intercalate clauses

/-- The text that assigns to columns where clauses hold. -/
def updateText (table : String) (columns clauses : List String) : String :=
  "UPDATE " ++ table ++ " SET " ++ (", ".intercalate (columns.map (· ++ " = ?")) ++ conditionText clauses)

/-- The form of an update of a table: it assigns to one column at least. -/
def IsUpdate (table text : String) : Prop :=
  ∃ columns clauses, columns ≠ [] ∧ (∀ column ∈ columns, Plain column) ∧
    (∀ clause ∈ clauses, IsClause clause) ∧ text = updateText table columns clauses

/-- The texts of the clauses of a filter. -/
def Filter.clauseTexts (f : Filter) : List String :=
  f.clauses.map fun c => c.field ++ " " ++ c.condition.testOp.sql

/-! ## The form of a text -/

theorem isClause_test {field : String} (named : Plain field) (op : TestOp) :
    IsClause (field ++ " " ++ op.sql) := by
  cases op with
  | compare op => simpa [TestOp.sql, String.append_assoc] using IsClause.compare named op
  | member op count =>
    simpa [TestOp.sql, TestOp.placeholders, String.append_assoc] using IsClause.member named op count

theorem join_wherePieces (tests : List Test) :
    String.join ((Statement.wherePieces tests).map Statement.Piece.text) =
      conditionText (tests.map Test.sql) := by
  have sql : Test.sql = fun t => t.field ++ " " ++ t.op.sql := rfl
  cases tests with
  | nil => rfl
  | cons test rest =>
    rw [Statement.wherePieces, if_neg (by simp), List.map_cons, String.join_cons, join_separated,
      List.map_map, conditionText, if_neg (by simp)]
    simp [Function.comp_def, Statement.Piece.text, sql, String.append_assoc]

theorem Statement.text_update (table : String) (columns : List String) (tests : List Test) :
    (Statement.update table columns tests).text =
      updateText table columns (tests.map Test.sql) := by
  rw [text, pieces, List.map_append, List.map_append, String.join_append, String.join_append,
    join_separated, List.map_map, join_wherePieces, updateText]
  simp [Function.comp_def, Statement.Piece.text, String.append_assoc]

theorem head?_conditionText {clauses : List String} {c : Char}
    (first : (conditionText clauses).toList.head? = some c) : c = ' ' := by
  unfold conditionText at first
  split at first
  · cases first
  · simpa [eq_comm] using first

theorem Plain.head?_ne_blank {name : String} (plain : Plain name) : name.toList.head? ≠ some ' ' := by
  obtain ⟨c, first, starts⟩ := plain.first
  rw [first]
  rintro ⟨⟩
  exact absurd (isNameStart_iff.mpr starts) (by decide)

/-- Where nothing is assigned to, a blank or the end follows instead of a name. -/
theorem not_isUpdate_nil (table : String) (clauses : List String) :
    ¬ IsUpdate table (updateText table [] clauses) := by
  rintro ⟨columns, others, assigned, named, -, same⟩
  -- Both texts begin alike, so the first name of one stands where the other has its condition.
  obtain ⟨column, rest, rfl⟩ := List.exists_cons_of_ne_nil assigned
  have plain : Plain column := named column (List.mem_cons_self ..)
  obtain ⟨c, first, -⟩ := plain.first
  have starts : (conditionText clauses).toList.head? = some c := by
    rw [updateText, updateText, String.append_right_inj, List.map_nil, String.intercalate_nil,
      String.empty_append] at same
    rw [same]
    cases rest <;> simp [String.intercalate_cons_cons, first]
  exact plain.head?_ne_blank (by rw [first, head?_conditionText starts])

theorem isUpdate_iff {table : String} {columns clauses : List String}
    (named : ∀ column ∈ columns, Plain column) (formed : ∀ clause ∈ clauses, IsClause clause) :
    IsUpdate table (updateText table columns clauses) ↔ columns ≠ [] := by
  refine ⟨?_, fun assigned => ⟨columns, clauses, assigned, named, formed, rfl⟩⟩
  rintro update rfl
  exact not_isUpdate_nil table clauses update

/-! ## What is sent -/

theorem Request.text_update {table : String} {filter : Filter} {row : Row} {call : Call}
    (accepted : Request.update table filter row = .ok call) :
    call.statement.text = updateText table row.names filter.clauseTexts := by
  obtain ⟨-, -, predicate, passed, rfl⟩ := Request.update_eq_ok.mp accepted
  obtain ⟨-, rfl⟩ := ofFilter_eq_ok.mp passed
  rw [Statement.text_update, List.map_map]
  rfl

theorem Request.isUpdate_iff {table : String} {filter : Filter} {row : Row} {call : Call}
    (accepted : Request.update table filter row = .ok call) :
    IsUpdate table call.statement.text ↔ row.names ≠ [] := by
  have named : ∀ name ∈ table :: (row.names ++ filter.fields), Plain name :=
    passes_ofNames.mp ((decides_update table filter row).passes_iff.mpr ⟨call, accepted⟩)
  rw [List.forall_mem_cons, List.forall_mem_append] at named
  obtain ⟨-, columns, fields⟩ := named
  rw [Request.text_update accepted]
  refine LiveTable.isUpdate_iff columns fun clause member => ?_
  obtain ⟨c, present, rfl⟩ := List.mem_map.mp member
  exact isClause_test (fields _ (List.mem_map_of_mem present)) _

/-- A storage refuses every update that assigns to nothing, and keeps what it has. -/
def Backend.RefusesBlank {σ ν : Type} (backend : Backend σ) (view : σ → ν) : Prop :=
  ∀ call table tests, call.statement = .update table [] tests → ∀ storage,
    (∃ message, (backend.answer call storage).1 = .failed message) ∧
      view (backend.answer call storage).2 = view storage

theorem Database.update_nil (c : Content) (s : Statement) (table : String) (tests : List Test)
    (params : List Value) : ∃ fault, c.update s table [] tests params = .error fault := by
  by_cases reserved : isReserved table = true
  · exact ⟨_, by simp only [Content.update, reserved]; rfl⟩
  · cases tests <;> exact ⟨_, by simp only [Content.update, reserved]; rfl⟩

theorem refusesBlank_memory : Database.memoryBackend.RefusesBlank id := by
  rintro ⟨kind, statement, params⟩ table tests rfl db
  obtain ⟨fault, refused⟩ := Database.update_nil db.content (.update table [] tests) table tests params
  have failed : db.execute params (.update table [] tests) = .error fault := by
    rw [Database.execute, refused]
    rfl
  have answers : db.answer ⟨kind, .update table [] tests, params⟩ =
      (.failed (fault.message (Statement.update table [] tests).text), db) := by
    simp only [Database.answer, Database.resolveVerbatim, failed]
  exact ⟨⟨_, congrArg Prod.fst answers⟩, congrArg Prod.snd answers⟩

namespace Session

variable {σ : Type} {backend : Backend σ} {s : Session σ} {context : Context}

/-- In a session without prepared replies, a call that the storage refuses ends the operation. -/
theorem run_refused (unscripted : s.scripted = false) {call : Call} {message : String} {storage : σ}
    (refuses : backend.answer call s.storage = (.failed message, storage)) (event : ChangeEvent)
    (reading : Reading) :
    ∃ s', s.run backend [.send call (.publish event reading context)] = s' ∧ s'.storage = storage ∧
      s'.history = .finished context (.failed (.store (.storage message))) ::
        .returned call (.failed message) :: .sent call :: s.history := by
  have sent : (s.record (.sent call)).scripted = false := unscripted
  have answered : ({ s.record (.sent call) with storage } : Session σ).scripted = false := unscripted
  have refuses : backend.answer call (s.record (.sent call)).storage = (.failed message, storage) := refuses
  refine ⟨_, rfl, ?_⟩
  simp only [run, advance, takeHook_unscripted sent, answer_unscripted sent, refuses,
    takeHook_unscripted answered, List.cons_append, List.nil_append, resume, outcome_failed, refuse]
  split <;> exact ⟨rfl, rfl⟩

/-- Every update of the store is checked and then sent, and what is sent has the form of an update exactly if
the row has a column. Where the storage refuses what is sent for a row without columns, nothing is changed
and nobody hears of it. Every command that updates starts as the operation does. -/
theorem updates_formed (backend : Backend σ) (table : String) (filter : Filter) (row : Row) :
    (∀ (s : Session σ) context,
      (∃ happened, Own backend s (s.operate context (.data (.update table filter row))) happened) ∧
      ∀ happened, Own backend s (s.operate context (.data (.update table filter row))) happened →
        (¬ (∀ name ∈ table :: (row.names ++ filter.fields), Plain name) ∧
          ∃ e, happened = [.finished context (.failed (.store e))]) ∨
        (∀ name ∈ table :: (row.names ++ filter.fields), Plain name) ∧
          ∃ text, happened.filterMap Happening.text? = [text] ∧
            text = updateText table row.names filter.clauseTexts ∧ (IsUpdate table text ↔ row.names ≠ [])) ∧
    (row.names = [] → (∀ name ∈ table :: filter.fields, Plain name) →
      ∀ (s : Session σ) context (ν : Type) (view : σ → ν), s.scripted = false → backend.RefusesBlank view →
        ∃ call message s', (s.operate context (.data (.update table filter row))).1.run backend
            (s.operate context (.data (.update table filter row))).2 = s' ∧
          view s'.storage = view s.storage ∧
          s'.history = .finished context (.failed (.store (.storage message))) ::
            .returned call (.failed message) :: .sent call :: s.history) ∧
    ∀ (s : Session σ) context command, Command.Calls command (.data (.update table filter row)) →
      s.ask backend context command =
        (s.record (.asked command)).operate context (.data (.update table filter row)) := by
  have decides := (decides_update table filter row).passes_iff
  rw [passes_ofNames] at decides
  refine ⟨fun s context => ⟨own_exists s _ _, fun happened own => ?_⟩, ?_,
    fun s context command calls => ask_operate backend s context calls⟩
  · rcases own.request with ⟨call, accepted, texts⟩ | ⟨e, refused, ends⟩
    · have accepted : Request.update table filter row = .ok call := accepted
      exact .inr ⟨decides.mpr ⟨call, accepted⟩, _, texts, Request.text_update accepted,
        Request.isUpdate_iff accepted⟩
    · have refused : Request.update table filter row = .error e := refused
      refine .inl ⟨fun named => ?_, e, ends⟩
      obtain ⟨call, accepted⟩ := decides.mp named
      cases accepted.symm.trans refused
  · intro empty named s context ν view unscripted refuses
    obtain ⟨call, accepted⟩ := decides.mp (by simpa [empty] using named)
    obtain ⟨tests, blank⟩ : ∃ tests, call.statement = .update table [] tests := by
      obtain ⟨-, -, predicate, -, rfl⟩ := Request.update_eq_ok.mp accepted
      exact ⟨predicate.tests, by rw [empty]⟩
    obtain ⟨⟨message, refused⟩, same⟩ := refuses call table tests blank s.storage
    have failed : backend.answer call s.storage = (.failed message, (backend.answer call s.storage).2) :=
      Prod.ext refused rfl
    obtain ⟨s', runs, kept, history⟩ := run_refused unscripted failed ⟨table, .update, some row⟩ .count
    refine ⟨call, message, s', ?_, ?_, history⟩
    · rw [← runs, operate, Demand.call, accepted]
      rfl
    · rw [kept, same]

/-- A session with one note. -/
def jotted : Progress Database := play Database.memoryBackend 20 (.start .inMemory false 1000, [])
  [.createTable "notes" ["title:text"], .insert "notes" (.value (.ofList [("title", .text "a")]))]

/-- The notes of this title. -/
def titled (title : String) : Filter := ⟨[⟨"title", .equals (.text title)⟩]⟩

/-- A command that sets no column. -/
def jottedBlank : Command := .update "notes" (.value (titled "a")) (.json "\x7b\x7d")

/-- A note gets another title. Then it is given no column at all. -/
theorem jotted_updates :
    (∃ happened, Own Database.memoryBackend jotted.1 (jotted.1.operate .top
        (.data (.update "notes" (titled "a") (.ofList [("title", .text "b")])))) happened ∧
      happened.filterMap Happening.text? = ["UPDATE notes SET title = ? WHERE title = ?"] ∧
      IsUpdate "notes" "UPDATE notes SET title = ? WHERE title = ?") ∧
    (∃ call message s', (jotted.1.operate .top (.data (.update "notes" (titled "a") .empty))).1.run
        Database.memoryBackend (jotted.1.operate .top (.data (.update "notes" (titled "a") .empty))).2 = s' ∧
      s'.storage = jotted.1.storage ∧ s'.history = .finished .top (.failed (.store (.storage message))) ::
        .returned call (.failed message) :: .sent call :: jotted.1.history) ∧
    jotted.1.ask Database.memoryBackend .top jottedBlank =
      (jotted.1.record (.asked jottedBlank)).operate .top (.data (.update "notes" (titled "a") .empty)) := by
  have notes : Plain "notes" := isIdentifier_iff.mp (by decide)
  have title : Plain "title" := isIdentifier_iff.mp (by decide)
  have named : ∀ name ∈ ["notes", "title"], Plain name := by simp [notes, title]
  have named' : ∀ name ∈ ["notes", "title", "title"], Plain name := by simp [notes, title]
  obtain ⟨renames, -, -⟩ := updates_formed Database.memoryBackend "notes" (titled "a")
    (.ofList [("title", .text "b")])
  obtain ⟨happened, own⟩ := (renames jotted.1 .top).1
  obtain ⟨-, blanks, commands⟩ := updates_formed Database.memoryBackend "notes" (titled "a") .empty
  refine ⟨⟨happened, own, ?_⟩, blanks rfl named jotted.1 .top _ id (by decide +kernel) refusesBlank_memory,
    commands _ _ _ (.update rfl (by decide +kernel))⟩
  rcases (renames jotted.1 .top).2 happened own with ⟨unnamed, -⟩ | ⟨-, text, texts, formed, update⟩
  · exact absurd named' unnamed
  · obtain rfl : text = "UPDATE notes SET title = ? WHERE title = ?" := formed.trans (by decide +kernel)
    exact ⟨texts, update.mpr (List.cons_ne_nil _ _)⟩

/-- A row without columns is a row, and what is sent for it is no update. -/
theorem blank_update_sent : (Given.json "\x7b\x7d").row = .ok .empty ∧
    ∃ happened text, Own Database.memoryBackend jotted.1
        (jotted.1.operate .top (.data (.update "notes" (titled "a") .empty))) happened ∧
      happened.filterMap Happening.text? = [text] ∧ text = "UPDATE notes SET  WHERE title = ?" ∧
      ¬ IsUpdate "notes" text := by
  obtain ⟨happened, own⟩ : ∃ happened, Own Database.memoryBackend jotted.1
      (jotted.1.operate .top (.data (.update "notes" (titled "a") .empty))) happened := own_exists ..
  rcases own.request with ⟨call, accepted, texts⟩ | ⟨e, refused, -⟩
  · have text := Request.text_update (show Request.update "notes" (titled "a") .empty = .ok call from accepted)
    refine ⟨by decide +kernel, happened, _, own, texts, text.trans (by decide +kernel), ?_⟩
    rw [text]
    exact not_isUpdate_nil "notes" _
  · cases refused

end Session

end LiveTable
