import LiveTable.Proofs.Sending

/-!
# Requests that differ in values only

Values do not decide what is sent. Requests with the same names, operators and numbers of operands send
one text, or they fail at one check with one error. Operations other than requests have no values.
-/

namespace LiveTable

/-- Conditions that differ in their values only; lists of values are of one length. -/
inductive Condition.Alike : Condition → Condition → Prop
  | equals (value value' : Value) : Alike (.equals value) (.equals value')
  | compare (op : CompareOp) (value value' : Value) : Alike (.compare op value) (.compare op value')
  | member (op : MemberOp) {values values' : List Value} (length : values.length = values'.length) :
    Alike (.member op values) (.member op values')

/-- Filters that differ in their values only. -/
def Filter.Alike (f g : Filter) : Prop :=
  List.Forall₂ (fun c d => c.field = d.field ∧ c.condition.Alike d.condition) f.clauses g.clauses

/-- Requests that differ in their values only. -/
inductive Twins : Demand → Demand → Prop
  | insert (table : String) {row row' : Row} (columns : row.names = row'.names) :
    Twins (.insert table row) (.insert table row')
  | update (table : String) {filter filter' : Filter} {row row' : Row} (filters : filter.Alike filter')
    (columns : row.names = row'.names) : Twins (.update table filter row) (.update table filter' row')
  | delete (table : String) {filter filter' : Filter} (filters : filter.Alike filter') :
    Twins (.delete table filter) (.delete table filter')
  | select (table : String) (columns : List String) {filter filter' : Filter} (order : SortOrder)
    (filters : filter.Alike filter') :
    Twins (.select ⟨table, columns, filter, order⟩) (.select ⟨table, columns, filter', order⟩)

/-- The text that was sent. -/
def Happening.text? : Happening → Option String
  | .sent call => some call.statement.text
  | _ => none

/-! ## Calls of twins -/

theorem Condition.Alike.testOp {c d : Condition} (alike : c.Alike d) : c.testOp = d.testOp := by
  cases alike with
  | equals value value' => rfl
  | compare op value value' => rfl
  | member op length => rw [Condition.testOp, length, Condition.testOp]

/-- What conditions that are alike have in common is common to filters that are alike. -/
theorem Filter.Alike.map {α : Type} {f g : Filter} (alike : f.Alike g) (part : Clause → α)
    (common : ∀ c d : Clause, c.field = d.field → c.condition.Alike d.condition → part c = part d) :
    f.clauses.map part = g.clauses.map part := by
  rw [← List.forall₂_eq_eq_eq, List.forall₂_map_left_iff, List.forall₂_map_right_iff]
  exact List.Forall₂.imp (fun c d same => common c d same.1 same.2) alike

theorem Filter.Alike.fields {f g : Filter} (alike : f.Alike g) :
    f.clauses.map (·.field) = g.clauses.map (·.field) :=
  alike.map _ fun _ _ field _ => field

theorem Filter.Alike.tests {f g : Filter} (alike : f.Alike g) :
    (f.clauses.map fun c => Test.mk c.field c.condition.testOp) =
      g.clauses.map fun c => Test.mk c.field c.condition.testOp :=
  alike.map _ fun _ _ field condition => by rw [field, condition.testOp]

/-- The stamp is a value, and its column stands where it stands for every time. -/
theorem stamped_alike {row row' : Row} (columns : row.names = row'.names) (now now' : Int64) :
    (Request.stamped now row).names = (Request.stamped now' row').names := by
  have columns : row.entries.map Prod.fst = row'.entries.map Prod.fst := columns
  simp only [Request.stamped, Ordered.insert, Ordered.names, Ordered.names_place, columns]

/-- Twins have one statement, or one error. The checks look at names, and the statement has the names of
the columns and the tests, which have no values. -/
theorem Twins.statement {demand other : Demand} (twins : Twins demand other) (now now' : Int64) :
    (demand.call now).map Call.statement = (other.call now').map Call.statement := by
  -- With names and tests made equal, both sides go through the same checks in the same order.
  cases twins with
  | @insert table row row' columns =>
    simp only [Demand.call, Request.insert, stamped_alike columns now now']
    cases checkName table <;> cases checkNames (Request.stamped now' row').names <;> rfl
  | @update table filter filter' row row' filters columns =>
    simp only [Demand.call, Request.update, Predicate.ofFilter, columns, filters.fields, filters.tests]
    cases checkName table <;> cases checkNames row'.names <;>
      cases checkNames (filter'.clauses.map (·.field)) <;> rfl
  | @delete table filter filter' filters =>
    simp only [Demand.call, Request.delete, Predicate.ofFilter, filters.fields, filters.tests]
    cases checkName table <;> cases checkNames (filter'.clauses.map (·.field)) <;> rfl
  | @select table columns filter filter' order filters =>
    simp only [Demand.call, Request.select, Predicate.ofFilter, filters.fields, filters.tests]
    cases checkName table <;> cases Request.checkProjection [] columns <;>
      cases checkNames (filter'.clauses.map (·.field)) <;>
      cases checkNames (order.keys.map (·.column)) <;> rfl

namespace Session

variable {σ : Type} {backend : Backend σ} {s s' : Session σ} {context : Context}
  {happened : List Happening}

/-! ## Runs of twins -/

/-- Nothing is sent once the call of a request comes back. -/
theorem Own.texts_next {demand : Demand} {call : Call} {answer : Answer}
    (own : Own backend s (s, [.resume call answer (demand.next context)]) happened) :
    happened.filterMap Happening.text? = [] := by
  have published {event : ChangeEvent} {reading : Reading}
      (own : Own backend s (s, [.resume call answer (.publish event reading context)]) happened) :
      happened.filterMap Happening.text? = [] := by
    rcases own.resume_publish with ⟨e, -, rfl⟩ | ⟨result, observers, -, rfl⟩ <;> rfl
  cases demand with
  | insert table row => exact published own
  | update table filter row => exact published own
  | delete table filter => exact published own
  | select spec =>
    rw [Own.resume_conclude own]
    rfl

/-- A request sends the text of its call, or it ends with the error of its check. -/
theorem Own.request {demand : Demand}
    (own : Own backend s (s.operate context (.data demand)) happened) :
    (∃ call, demand.call s.now = .ok call ∧
      happened.filterMap Happening.text? = [call.statement.text]) ∨
    ∃ e, demand.call s.now = .error e ∧ happened = [.finished context (.failed (.store e))] := by
  cases called : demand.call s.now with
  | error e =>
    have refused : Own backend s (s, [.conclude context (.failed (.store e))]) happened := by
      simpa [operate, Session.request, refuse, called] using own
    exact .inr ⟨e, rfl, by rw [refused.conclude, since_of_same rfl]; rfl⟩
  | ok call =>
    have sends : Own backend s (s, [.send call (demand.next context)]) happened := by
      simpa [operate, Session.request, called] using own
    obtain ⟨after, answer, rest, split, own⟩ := sends.send
    refine .inl ⟨call, rfl, ?_⟩
    rw [split, since_of_same rfl, List.nil_append]
    exact congrArg (call.statement.text :: ·) own.texts_next

/-- Twins send one text, or they fail with one error, whatever else differs between their runs. -/
theorem Own.twins {σ' : Type} {backend' : Backend σ'} {s' : Session σ'} {context' : Context}
    {happened' : List Happening} {demand other : Demand} (twins : Twins demand other)
    (own : Own backend s (s.operate context (.data demand)) happened)
    (own' : Own backend' s' (s'.operate context' (.data other)) happened') :
    (∃ text, happened.filterMap Happening.text? = [text] ∧
      happened'.filterMap Happening.text? = [text]) ∨
    ∃ e, happened = [.finished context (.failed (.store e))] ∧
      happened' = [.finished context' (.failed (.store e))] := by
  have same := twins.statement s.now s'.now
  rcases own.request with ⟨call, called, texts⟩ | ⟨e, called, ends⟩ <;>
    rcases own'.request with ⟨call', called', texts'⟩ | ⟨e', called', ends'⟩ <;>
    rw [called, called'] at same
  · have statement : call.statement = call'.statement := Except.ok.inj same
    exact .inl ⟨call.statement.text, texts, by rw [texts', statement]⟩
  · cases same
  · cases same
  · obtain rfl : e = e' := Except.error.inj same
    exact .inr ⟨e, ends, ends'⟩

/-- No operation of the store lets names that are no identifiers, or values, into a statement; and
values decide neither what is sent nor whether a check fails. Every command that calls an operation, and
every fetch of a query, sends what the operation sends. -/
theorem statements_clean (backend : Backend σ) :
    (∀ s context operation, (∃ happened, Own backend s (s.operate context operation) happened) ∧
      ∀ happened, Own backend s (s.operate context operation) happened →
        ∀ call, .sent call ∈ happened → Clean operation.names call.statement.text) ∧
    (∀ (s : Session σ) context command operation, Command.Calls command operation →
      s.ask backend context command = (s.record (.asked command)).operate context operation) ∧
    (∀ (s : Session σ) key call next, .send call next ∈ (s.fetch key).2 →
      ∃ q, s.queries[key]? = some q ∧ Clean q.spec.names call.statement.text) ∧
    ∀ demand other, Twins demand other → ∀ s context happened,
      Own backend s (s.operate context (.data demand)) happened →
      ∀ {σ' : Type} (backend' : Backend σ') s' context' happened',
      Own backend' s' (s'.operate context' (.data other)) happened' →
        (∃ text, happened.filterMap Happening.text? = [text] ∧
          happened'.filterMap Happening.text? = [text]) ∨
        ∃ e, happened = [.finished context (.failed (.store e))] ∧
          happened' = [.finished context' (.failed (.store e))] := by
  refine ⟨fun s context operation => ⟨own_exists s _ _, fun happened own => own.clean⟩,
    fun s context command operation calls => ask_operate backend s context calls,
    fun s key call next sends => fetch_clean sends, ?_⟩
  intro demand other twins s context happened own σ' backend' s' context' happened' own'
  exact own.twins twins own'

/-- A row with a value that would end the statement if it stood there. -/
def hostile : Demand := .insert "logs" (.ofList [("FROM", .text "0); DROP TABLE logs; --")])

/-- A row of the same columns. -/
def harmless : Demand := .insert "logs" (.ofList [("FROM", .null)])

/-- A session with a query on the table. -/
def listed : Progress Unit :=
  play .mute 40 (.start () true 0, [])
    [.openQuery "logs" ["*", "FROM"] (.value .empty) (.value .empty) "list" []]

theorem hostile_clean :
    (∃ happened happened',
      (Own .mute (.start () true 0) ((start () true 0).operate .top (.data hostile)) happened ∧
        happened.filterMap Happening.text? = ["INSERT INTO logs (FROM, added) VALUES (?, ?)"] ∧
        ∀ call, .sent call ∈ happened → Clean ["logs", "FROM"] call.statement.text) ∧
      Twins hostile harmless ∧
        Own .mute (.start () true 7) ((start () true 7).operate .top (.data harmless)) happened' ∧
        ((∃ text, happened.filterMap Happening.text? = [text] ∧
          happened'.filterMap Happening.text? = [text]) ∨
        ∃ e, happened = [.finished .top (.failed (.store e))] ∧
          happened' = [.finished .top (.failed (.store e))])) ∧
    (hostile.command.Calls (.data hostile) ∧ (start () true 0).ask .mute .top hostile.command =
      ((start () true 0).record (.asked hostile.command)).operate .top (.data hostile)) ∧
    ∃ call next, .send call next ∈ (listed.1.fetch 0).2 ∧
      call.statement.text = "SELECT *, FROM FROM logs" ∧
      ∃ q, listed.1.queries[0]? = some q ∧ Clean q.spec.names call.statement.text := by
  obtain ⟨runs, starts, fetches, agree⟩ := statements_clean .mute
  have own : ∃ happened,
      Own .mute (.start () true 0) ((start () true 0).operate .top (.data hostile)) happened ∧
      happened.filterMap Happening.text? = ["INSERT INTO logs (FROM, added) VALUES (?, ?)"] :=
    ⟨_, .own rfl (.others rfl (later_steps 1 _) (.own rfl (.others rfl (later_steps 1 _)
      (.own rfl (.others rfl (later_steps 1 _) (.own rfl (.done _ _))))))), by decide⟩
  obtain ⟨happened, own, texts⟩ := own
  obtain ⟨happened', own'⟩ := (runs (.start () true 7) .top (.data harmless)).1
  have twins : Twins hostile harmless := .insert "logs" rfl
  have calls : hostile.command.Calls (.data hostile) := .insert rfl
  have fetched : .send ⟨.query, .select ["*", "FROM"] "logs" [] [], []⟩ (.deliver 0 2) ∈
      (listed.1.fetch 0).2 := List.mem_singleton.mpr rfl
  exact ⟨⟨happened, happened', ⟨own, texts, (runs _ _ _).2 happened own⟩, twins, own',
      agree _ _ twins _ _ _ own _ _ _ _ own'⟩,
    ⟨calls, starts _ _ _ _ calls⟩, _, _, fetched, by decide, fetches _ _ _ _ fetched⟩

end Session

end LiveTable
