import LiveTable.Proofs.Validation

/-!
# How far an addition of columns gets

Columns are added one after the other, each with a statement of its own, and the name of a column is looked at
only when its turn comes. So an addition that fails has added the columns in front of the one at fault and no
others, and its error is that of the column at fault. No observer hears of it.
-/

namespace LiveTable

/-- The statement that adds a column. -/
def additionCall (table : String) (column : String × ColumnDef) : Call :=
  ⟨.execute, .addColumn table column.1 column.2, []⟩

/-- A statement that adds a column, and what comes back. -/
def addition (table : String) (column : String × ColumnDef) (answer : Answer) : List Happening :=
  [.sent (additionCall table column), .returned (additionCall table column) answer]

/-- The column is added: its name is plain and its statement does not fail. -/
structure Added (column : String × ColumnDef) (answer : Answer) : Prop where
  named : Plain column.1
  succeeds : ∀ message, answer ≠ .failed message

/-- Where an addition stops, with the columns that are left, what still happens and the outcome: there are none,
or the first has a name that is not plain, and nothing is sent for it, or its statement fails. -/
inductive Stops (table : String) : List (String × ColumnDef) → List Happening → Outcome → Prop
  | finished : Stops table [] [] .done
  | unnamed {column : String × ColumnDef} {rest : List (String × ColumnDef)} (unnamed : ¬ Plain column.1) :
    Stops table (column :: rest) [] (.failed (.store (.invalidIdentifier column.1)))
  | refused {column : String × ColumnDef} {rest : List (String × ColumnDef)} (named : Plain column.1)
    (message : String) : Stops table (column :: rest) (addition table column (.failed message))
      (.failed (.store (.storage message)))

variable {table : String} {columns rest : List (String × ColumnDef)} {last : List Happening} {outcome : Outcome}

theorem Stops.done_iff (stops : Stops table rest last outcome) : outcome = .done ↔ rest = [] := by
  cases stops <;> simp

theorem Stops.unpublished (stops : Stops table rest last outcome) (event : ChangeEvent)
    (observers : List Observer) : .published event observers ∉ last := by
  cases stops <;> simp [addition]

/-- An addition: some of the columns in front are added, and then it stops. -/
inductive Adds (table : String) (context : Context) : List (String × ColumnDef) → List Happening → Prop
  | stop {rest : List (String × ColumnDef)} {last : List Happening} {outcome : Outcome}
    (stops : Stops table rest last outcome) : Adds table context rest (last ++ [.finished context outcome])
  | add {column : String × ColumnDef} {answer : Answer} {rest : List (String × ColumnDef)}
    {happened : List Happening} (added : Added column answer) (adds : Adds table context rest happened) :
    Adds table context (column :: rest) (addition table column answer ++ happened)

theorem Adds.unpublished {context : Context} {happened : List Happening}
    (adds : Adds table context columns happened) (event : ChangeEvent) (observers : List Observer) :
    .published event observers ∉ happened := by
  induction adds with
  | stop stops => simp [stops.unpublished]
  | add _ _ ih => simp [addition, ih]

/-- The columns that an addition adds are those in front of the place at which it stops. -/
theorem Adds.split {context : Context} {happened : List Happening} (adds : Adds table context columns happened) :
    ∃ (added : List ((String × ColumnDef) × Answer)) (rest : List (String × ColumnDef)) (last : List Happening)
      (outcome : Outcome), columns = added.map (·.1) ++ rest ∧ (∀ a ∈ added, Added a.1 a.2) ∧
        Stops table rest last outcome ∧ (outcome = .done ↔ rest = []) ∧
        happened = added.flatMap (fun a => addition table a.1 a.2) ++ last ++ [.finished context outcome] := by
  induction adds with
  | stop stops => exact ⟨[], _, _, _, rfl, List.forall_mem_nil _, stops, stops.done_iff, rfl⟩
  | @add column answer _ _ first _ ih =>
    obtain ⟨added, rest, last, outcome, rfl, all, stops, done, rfl⟩ := ih
    exact ⟨(column, answer) :: added, rest, last, outcome, rfl, List.forall_mem_cons.mpr ⟨first, all⟩,
      stops, done, by simp⟩

namespace Session

variable {σ : Type} {backend : Backend σ} {s s' : Session σ} {context : Context} {happened : List Happening}

/-- The columns that are left are added in turn. -/
theorem Own.adds (own : Own backend s (s'.addColumns table context columns) happened) :
    ∃ own, happened = since s s' ++ own ∧ Adds table context columns own := by
  induction columns generalizing s s' happened with
  | nil => exact ⟨_, own.conclude, .stop .finished⟩
  | cons column columns ih =>
    rw [addColumns] at own
    by_cases named : Plain column.1
    · have accepted : Request.addColumn table column.1 column.2 = .ok (additionCall table column) :=
        Request.addColumn_eq_ok.mpr ⟨checkName_eq_ok.mpr (isIdentifier_iff.mpr named), rfl⟩
      rw [accepted, Session.request] at own
      obtain ⟨after, answer, resumes, split, own⟩ := own.send
      refine ⟨_, split, ?_⟩
      obtain ⟨returns, splitReturn, own⟩ := own.mine rfl
      rw [splitReturn, since_of_same rfl, List.nil_append]
      by_cases failed : ∃ message, answer = .failed message
      · obtain ⟨message, rfl⟩ := failed
        have ends : Own backend after (after.record (.returned (additionCall table column) (.failed message)),
          [.conclude context (.failed (.store (.storage message)))]) returns := own
        rw [ends.conclude, since_of_record rfl]
        exact .stop (.refused named message)
      · have succeeds := not_exists.mp failed
        have passes : answer.toDone = .ok () := by
          cases answer <;> first | rfl | exact absurd rfl (succeeds _)
        simp only [advance, Session.resume, passes, List.append_nil] at own
        obtain ⟨later, splitLater, adds⟩ := ih own
        rw [splitLater, since_of_record rfl]
        exact .add ⟨named, succeeds⟩ adds
    · have refused : Request.addColumn table column.1 column.2 = .error (.invalidIdentifier column.1) := by
        rw [Request.addColumn, (decides_checkName column.1).fails _ (.here named)]
        rfl
      rw [refused, Session.request, refuse] at own
      exact ⟨_, own.conclude, .stop (.unnamed named)⟩

/-- An addition of columns gets as far as it can, whatever the storage answers. If the name of the table is not
plain, that is all there is to it. Otherwise columns in front are added, in the order of the list, each with one
statement that succeeds; then the addition stops, and it has succeeded exactly if no columns are left. It
publishes nothing. -/
theorem columns_added (backend : Backend σ) (s : Session σ) (context : Context) (table : String)
    (spec : ColumnSpec) :
    (∃ happened, Own backend s (s.operate context (.addColumns table spec)) happened) ∧
    (∀ happened, Own backend s (s.operate context (.addColumns table spec)) happened →
      (∀ event observers, .published event observers ∉ happened) ∧
      (¬ Plain table ∧ happened = [.finished context (.failed (.store (.invalidIdentifier table)))] ∨
        Plain table ∧ ∃ (added : List ((String × ColumnDef) × Answer)) (rest : List (String × ColumnDef))
          (last : List Happening) (outcome : Outcome), spec.entries = added.map (·.1) ++ rest ∧
            (∀ a ∈ added, Added a.1 a.2) ∧ Stops table rest last outcome ∧ (outcome = .done ↔ rest = []) ∧
            happened =
              added.flatMap (fun a => addition table a.1 a.2) ++ last ++ [.finished context outcome])) ∧
    (∀ column, (additionCall table column).statement.text =
      "ALTER TABLE " ++ table ++ " ADD COLUMN " ++ column.1 ++ " " ++ column.2.sql) ∧
    ∀ command, Command.Calls command (.addColumns table spec) →
      s.ask backend context command = (s.record (.asked command)).operate context (.addColumns table spec) := by
  refine ⟨own_exists s _ _, fun happened own => ?_, fun column => ?_,
    fun command calls => ask_operate backend s context calls⟩
  · by_cases named : Plain table
    · rw [operate, checkName_eq_ok.mpr (isIdentifier_iff.mpr named)] at own
      obtain ⟨all, split, adds⟩ := Own.adds own
      rw [since_of_same rfl, List.nil_append] at split
      subst split
      exact ⟨adds.unpublished, .inr ⟨named, adds.split⟩⟩
    · have refused : checkName table = .error (.invalidIdentifier table) :=
        (decides_checkName table).fails _ (.here named)
      rw [operate, refused] at own
      have ends : happened = [.finished context (.failed (.store (.invalidIdentifier table)))] := own.refused
      subst ends
      exact ⟨by simp, .inl ⟨named, rfl⟩⟩
  · simp [additionCall, Statement.text, Statement.pieces, Statement.Piece.text, String.append_assoc]

/-- Three columns, the last of which no statement can name. -/
def threeColumns : ColumnSpec :=
  .ofList [("title", .plain .text), ("size", (ColumnDef.plain .integer).asNotNull), ("the body", .plain .text)]

/-- A storage that does what it is told but for some replies. -/
def replying (replies : List Reply) : Session Unit := { start () true 0 with replies }

/-- What happens if the storage refuses the second column. -/
def refusedSize : List Happening :=
  addition "notes" ("title", .plain .text) .done ++
    addition "notes" ("size", (ColumnDef.plain .integer).asNotNull) (.failed "full")

/-- What happens if the storage takes both columns that can be named. -/
def addedSize : List Happening :=
  addition "notes" ("title", .plain .text) .done ++
    addition "notes" ("size", (ColumnDef.plain .integer).asNotNull) .done

/-- An addition of three columns stops at the second if the storage refuses it, and at the third otherwise. -/
theorem threeColumns_added :
    (Own .mute (replying [.normal, .fail "full"])
        ((replying [.normal, .fail "full"]).operate .top (.addColumns "notes" threeColumns))
        (refusedSize ++ [.finished .top (.failed (.store (.storage "full")))]) ∧
      ∃ rest last, rest ≠ [] ∧ Stops "notes" rest last (.failed (.store (.storage "full")))) ∧
    (Own .mute (replying []) ((replying []).operate .top (.addColumns "notes" threeColumns))
        (addedSize ++ [.finished .top (.failed (.store (.invalidIdentifier "the body")))]) ∧
      ∃ rest last, rest ≠ [] ∧ Stops "notes" rest last (.failed (.store (.invalidIdentifier "the body")))) ∧
    Command.Calls (.addColumns "notes" ["title:text"]) (.addColumns "notes" (.ofList [("title", .plain .text)])) ∧
    (replying []).ask .mute .top (.addColumns "notes" ["title:text"]) =
      ((replying []).record (.asked (.addColumns "notes" ["title:text"]))).operate .top
        (.addColumns "notes" (.ofList [("title", .plain .text)])) := by
  have notes : Plain "notes" := isIdentifier_iff.mp (by decide)
  have calls : Command.Calls (.addColumns "notes" ["title:text"])
      (.addColumns "notes" (.ofList [("title", .plain .text)])) := .addColumns (by decide)
  -- The end of a run tells its outcome, and a failure leaves columns.
  have stopped {happened : List Happening} {s : Session Unit} {e : Error}
      (own : Own .mute s (s.operate .top (.addColumns "notes" threeColumns))
        (happened ++ [.finished .top (.failed (.store e))])) :
      ∃ rest last, rest ≠ [] ∧ Stops "notes" rest last (.failed (.store e)) := by
    obtain ⟨-, ⟨unnamed, -⟩ | ⟨-, added, rest, last, outcome, -, -, stops, done, same⟩⟩ :=
      (columns_added Backend.mute s .top "notes" threeColumns).2.1 _ own
    · exact absurd notes unnamed
    · have ends : [Happening.finished .top (.failed (.store e))] = [.finished .top outcome] :=
        (List.append_inj' same rfl).2
      simp only [List.cons.injEq, Happening.finished.injEq, true_and, and_true] at ends
      subst ends
      exact ⟨rest, last, fun empty => (nomatch done.mpr empty), stops⟩
  have refused : Own .mute (replying [.normal, .fail "full"])
      ((replying [.normal, .fail "full"]).operate .top (.addColumns "notes" threeColumns))
      (refusedSize ++ [.finished .top (.failed (.store (.storage "full")))]) :=
    .own rfl (.others rfl (later_steps 1 _) (.own rfl (.others rfl (later_steps 1 _) (.own rfl
      (.own rfl (.others rfl (later_steps 1 _) (.own rfl (.others rfl (later_steps 1 _) (.own rfl
        (.own rfl (.done _ _)))))))))))
  have unnamed : Own .mute (replying []) ((replying []).operate .top (.addColumns "notes" threeColumns))
      (addedSize ++ [.finished .top (.failed (.store (.invalidIdentifier "the body")))]) :=
    .own rfl (.others rfl (later_steps 1 _) (.own rfl (.others rfl (later_steps 1 _) (.own rfl
      (.own rfl (.others rfl (later_steps 1 _) (.own rfl (.others rfl (later_steps 1 _) (.own rfl
        (.own rfl (.done _ _)))))))))))
  exact ⟨⟨refused, stopped refused⟩, ⟨unnamed, stopped unnamed⟩, calls,
    (columns_added Backend.mute (replying []) .top "notes" _).2.2.2 _ calls⟩

end Session

end LiveTable
