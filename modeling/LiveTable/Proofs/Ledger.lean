import LiveTable.Proofs.Moves

/-!
# The ledger of a query

All that a run does to one reactive query is written in its ledger: the query itself, what happened
to it, and the tickets of its fetches that wait for the storage, the innermost first. A ledger
changes in five ways only, whatever runs around the query and however deep it nests.
-/

namespace LiveTable

/-- A query, what happened to it (the latest first), and the tickets of its fetches that wait. -/
structure Ledger where
  query : Option Query
  trail : List Happening
  awaited : List Nat

namespace Ledger

/-- The ledger of a query that is not there yet. -/
def blank : Ledger := ⟨none, [], []⟩

/-- One change of the ledger of a query. -/
inductive Step (key : Nat) : Ledger → Ledger → Prop
  | opened {q : Query} {trail : List Happening} {awaited : List Nat} (active : q.active = true)
    (rows : q.rows = []) (lastError : q.lastError = none) (started : q.started = 0)
    (delivered : q.delivered = 0) (own : q.subscription.table = q.spec.table) :
    Step key ⟨none, trail, awaited⟩ ⟨some q, trail, awaited⟩
  | started {q : Query} {trail : List Happening} {awaited : List Nat} (active : q.active = true) :
    Step key ⟨some q, trail, awaited⟩
      ⟨some { q with started := q.started + 1 }, .fetched key (q.started + 1) :: trail,
        (q.started + 1) :: awaited⟩
  | accepted {q : Query} {trail : List Happening} {ticket : Nat} {awaited : List Nat}
    (result : Except Error (List Row)) (active : q.active = true) (new : q.delivered ≤ ticket) :
    Step key ⟨some q, trail, ticket :: awaited⟩
      ⟨some (q.take ticket result),
        .callback key ticket q.label result :: .arrived key ticket result :: trail, awaited⟩
  | discarded {q : Query} {trail : List Happening} {ticket : Nat} {awaited : List Nat}
    (result : Except Error (List Row)) (late : q.active = true → ticket < q.delivered) :
    Step key ⟨some q, trail, ticket :: awaited⟩
      ⟨some q, .discarded key ticket :: .arrived key ticket result :: trail, awaited⟩
  | disposed {q : Query} {trail : List Happening} {awaited : List Nat} (active : q.active = true) :
    Step key ⟨some q, trail, awaited⟩
      ⟨some { q with active := false }, .queryDisposed key :: trail, awaited⟩
  /-- A result for a query that is not there. -/
  | lost {trail : List Happening} {ticket : Nat} {awaited : List Nat} :
    Step key ⟨none, trail, ticket :: awaited⟩ ⟨none, trail, awaited⟩

/-- Any number of changes. -/
abbrev Steps (key : Nat) : Ledger → Ledger → Prop := Relation.ReflTransGen (Step key)

end Ledger

namespace Session

variable {σ : Type} {backend : Backend σ} {s s' : Session σ} {p p' : Progress σ}

/-- What happened to an observer, the latest first. -/
def trail (s : Session σ) (observer : Observer) : List Happening :=
  s.history.filter fun h => h.about = some observer

/-- The ledger of a query whose fetches wait under the given tickets. -/
def ledgerOf (s : Session σ) (key : Nat) (awaited : List Nat) : Ledger :=
  ⟨(s.queries[key]?).map Query.bare, s.trail (.query key), awaited⟩

/-- The tickets of a query's fetches that tasks will deliver. -/
def awaited (key : Nat) (tasks : List Task) : List Nat := tasks.filterMap (Task.ticket? key)

/-- The ledger of a query. -/
def ledger (key : Nat) (p : Progress σ) : Ledger := p.1.ledgerOf key (awaited key p.2)

@[simp] theorem awaited_cons (key : Nat) (task : Task) (rest : List Task) :
    awaited key (task :: rest) = (task.ticket? key).toList ++ awaited key rest := by
  rw [awaited, List.filterMap_cons]
  cases task.ticket? key <;> rfl

theorem awaited_append (key : Nat) (a b : List Task) :
    awaited key (a ++ b) = awaited key a ++ awaited key b := List.filterMap_append ..

theorem awaited_quiet {key : Nat} {tasks : List Task} (quiet : ∀ task ∈ tasks, task.ticket? key = none) :
    awaited key tasks = [] := List.filterMap_eq_nil_iff.mpr quiet

theorem trail_record (s : Session σ) (h : Happening) (observer : Observer) :
    (s.record h).trail observer =
      if h.about = some observer then h :: s.trail observer else s.trail observer := by
  simp only [trail, record, List.filter_cons, decide_eq_true_eq]

theorem trail_mine (s : Session σ) {h : Happening} {observer : Observer}
    (mine : h.about = some observer) : (s.record h).trail observer = h :: s.trail observer := by
  rw [trail_record, if_pos mine]

theorem trail_other (s : Session σ) {h : Happening} {observer : Observer}
    (other : h.about ≠ some observer) : (s.record h).trail observer = s.trail observer := by
  rw [trail_record, if_neg other]

theorem getElem?_setQuery (s : Session σ) (key other : Nat) (f : Query → Query) :
    (s.setQuery key f).queries[other]? = (s.queries[other]?).map fun q => if key = other then f q else q :=
  List.getElem?_modify ..

/-! ## Moves -/

theorem Alike.ledgerOf (alike : Alike s s') (key : Nat) (awaited : List Nat) :
    s'.ledgerOf key awaited = s.ledgerOf key awaited := by
  simp only [Session.ledgerOf, trail, alike.query key, alike.history]

theorem ledgerOf_record (s : Session σ) {h : Happening} {key : Nat} (other : h.about ≠ some (.query key))
    (awaited : List Nat) : (s.record h).ledgerOf key awaited = s.ledgerOf key awaited := by
  rw [Session.ledgerOf, trail_other s other]
  rfl

theorem ledgerOf_addQuery (s : Session σ) (spec : QuerySpec) (label : String) (plan : Plan)
    (key : Nat) (awaited : List Nat) :
    Ledger.Steps key (s.ledgerOf key awaited) ((s.addQuery spec label plan).2.ledgerOf key awaited) := by
  rcases Nat.lt_trichotomy key s.queries.length with old | new | none
  · have same : (s.addQuery spec label plan).2.ledgerOf key awaited = s.ledgerOf key awaited := by
      simp [Session.ledgerOf, addQuery, trail, List.getElem?_append_left old]
    rw [same]
  · subst new
    refine .single ?_
    simp only [Session.ledgerOf, addQuery, trail, List.getElem?_concat_length, List.getElem?_eq_none,
      Nat.le_refl, Option.map_some, Option.map_none]
    exact .opened rfl rfl rfl rfl rfl rfl
  · have same : (s.addQuery spec label plan).2.ledgerOf key awaited = s.ledgerOf key awaited := by
      have before : s.queries[key]? = Option.none := List.getElem?_eq_none (Nat.le_of_lt none)
      simp [Session.ledgerOf, addQuery, trail, before]
      omega
    rw [same]

theorem ledgerOf_update (s : Session σ) {key : Nat} {q : Query} (query : s.queries[key]? = some q)
    (f : Query → Query) {h : Happening} (about : h.about = some (.query key)) (awaited : List Nat) :
    ((s.setQuery key f).record h).ledgerOf key awaited =
      ⟨some (f q).bare, h :: s.trail (.query key), awaited⟩ := by
  have found : (s.setQuery key f).queries[key]? = some (f q) := by
    simp [getElem?_setQuery, query]
  rw [Session.ledgerOf, trail_mine _ about]
  simp only [record, found, Option.map_some]
  rfl

theorem ledgerOf_update_other (s : Session σ) {other key : Nat} (different : other ≠ key)
    (f : Query → Query) {h : Happening} (about : h.about = some (.query other)) (awaited : List Nat) :
    ((s.setQuery other f).record h).ledgerOf key awaited = s.ledgerOf key awaited := by
  rw [ledgerOf_record _ (by simpa [about] using different)]
  simp [Session.ledgerOf, different, trail, setQuery]

theorem ledgerOf_disposeQuery (s : Session σ) (other key : Nat) (awaited : List Nat) :
    Ledger.Steps key (s.ledgerOf key awaited) ((s.disposeQuery other).ledgerOf key awaited) := by
  cases queryDisposed s other with
  | idle inactive done => rw [done]
  | @ended q query active done =>
    rw [done]
    by_cases same : other = key
    · subst same
      have updated := ledgerOf_update s query (fun q => { q with active := false })
        (h := .queryDisposed other) rfl awaited
      have before : s.ledgerOf other awaited = ⟨some q.bare, s.trail (.query other), awaited⟩ := by
        simp [Session.ledgerOf, query]
      rw [before]
      exact .single (updated ▸ .disposed active)
    · have updated := ledgerOf_update_other s same (fun q => { q with active := false })
        (h := .queryDisposed other) rfl awaited
      exact updated ▸ .refl

theorem ledgerOf_disposeWatch (s : Session σ) (watch key : Nat) (awaited : List Nat) :
    (s.disposeWatch watch).ledgerOf key awaited = s.ledgerOf key awaited := by
  cases watchDisposed s watch with
  | idle inactive done => rw [done]
  | ended watch active done =>
    rw [done, ledgerOf_record _ (by simp [Happening.about])]
    rfl

theorem Move.ledgerOf (move : Move s s') (key : Nat) (awaited : List Nat) :
    Ledger.Steps key (s.ledgerOf key awaited) (s'.ledgerOf key awaited) := by
  cases move with
  | aside alike => rw [alike.ledgerOf]
  | queue replies => exact .refl
  | record neutral => rw [ledgerOf_record s (by simp [neutral])]
  | listen table label plan => exact .refl
  | unlisten kept => exact .refl
  | openQuery spec label plan => exact ledgerOf_addQuery s spec label plan key awaited
  | openWatch table label plan =>
    rw [ledgerOf_record _ (by simp [Happening.about])]
    exact .refl
  | notify watch active => rw [ledgerOf_record s (by simp [Happening.about])]
  | disposeQuery other => exact ledgerOf_disposeQuery s other key awaited
  | disposeWatch watch => rw [ledgerOf_disposeWatch]

theorem Moves.ledgerOf (moves : Moves s s') (key : Nat) (awaited : List Nat) :
    Ledger.Steps key (s.ledgerOf key awaited) (s'.ledgerOf key awaited) := by
  induction moves with
  | refl => exact .refl
  | tail _ move ih => exact ih.trans (move.ledgerOf key awaited)

theorem Reopened.ledgerOf (reopened : Reopened s s') (key : Nat) (awaited : List Nat) :
    Ledger.Steps key (s.ledgerOf key awaited) (s'.ledgerOf key awaited) := by
  obtain ⟨between, moves, dropped⟩ := reopened.moved
  have same : s'.ledgerOf key awaited = between.ledgerOf key awaited := by
    simp only [Session.ledgerOf, trail, dropped.queries, dropped.history]
  exact same ▸ moves.ledgerOf key awaited

/-! ## Fetches -/

theorem about_callback (key ticket : Nat) (label : String) (result : Except Error (List Row)) :
    (Happening.callback key ticket label result).about = some (.query key) := by
  cases result <;> rfl

theorem bare_take (q : Query) (ticket : Nat) (result : Except Error (List Row)) :
    (q.take ticket result).bare = q.bare.take ticket result := by
  cases result <;> rfl

theorem ledgerOf_takeResult (s : Session σ) {key : Nat} {q : Query} (query : s.queries[key]? = some q)
    (ticket : Nat) (result : Except Error (List Row)) (awaited : List Nat) :
    ((s.record (.arrived key ticket result)).takeResult key ticket q.label result).ledgerOf key awaited =
      ⟨some (q.bare.take ticket result), .callback key ticket q.label result ::
        .arrived key ticket result :: s.trail (.query key), awaited⟩ := by
  have arrived : (s.record (.arrived key ticket result)).queries[key]? = some q := query
  rw [takeResult, ledgerOf_update _ arrived _ (about_callback ..), bare_take, trail_mine s rfl]

theorem ledgerOf_accept {key ticket : Nat} {q : Query} (query : s.queries[key]? = some q)
    (active : q.active = true) (new : q.delivered ≤ ticket) (result : Except Error (List Row))
    (awaited : List Nat) : (s.deliver key ticket result).1.ledgerOf key awaited =
      ⟨some (q.bare.take ticket result), .callback key ticket q.label result ::
        .arrived key ticket result :: s.trail (.query key), awaited⟩ := by
  cases delivered s key ticket result with
  | lost none done => cases query.symm.trans none
  | accepted found active new calls done =>
    cases query.symm.trans found
    rw [done, calls.ledgerOf, ledgerOf_takeResult s query]
  | discarded found late done =>
    cases query.symm.trans found
    exact absurd (late active) (Nat.not_lt.mpr new)

theorem ledgerOf_discard {key ticket : Nat} {q : Query} (query : s.queries[key]? = some q)
    (late : q.active = true → ticket < q.delivered) (result : Except Error (List Row))
    (awaited : List Nat) : (s.deliver key ticket result).1.ledgerOf key awaited =
      ⟨some q.bare, .discarded key ticket :: .arrived key ticket result :: s.trail (.query key),
        awaited⟩ := by
  cases delivered s key ticket result with
  | lost none done => cases query.symm.trans none
  | accepted found active new calls done =>
    cases query.symm.trans found
    exact absurd (late active) (Nat.not_lt.mpr new)
  | discarded found late done =>
    rw [done, Session.ledgerOf, trail_mine _ rfl, trail_mine _ rfl]
    simp [record, query]

theorem ledgerOf_deliver (s : Session σ) (key ticket : Nat) (result : Except Error (List Row))
    (awaited : List Nat) :
    Ledger.Steps key (s.ledgerOf key (ticket :: awaited))
      ((s.deliver key ticket result).1.ledgerOf key awaited) := by
  have before {q : Query} (query : s.queries[key]? = some q) : s.ledgerOf key (ticket :: awaited) =
      ⟨some q.bare, s.trail (.query key), ticket :: awaited⟩ := by
    simp [Session.ledgerOf, query]
  cases delivered s key ticket result with
  | lost none done =>
    rw [done]
    simp only [Session.ledgerOf, none, Option.map_none]
    exact .single .lost
  | accepted query active new calls done =>
    rw [before query, ledgerOf_accept query active new]
    exact .single (.accepted result active new)
  | discarded query late done =>
    rw [before query, ledgerOf_discard query late]
    exact .single (.discarded result late)

theorem ledgerOf_deliver_other (s : Session σ) {other key : Nat} (different : other ≠ key)
    (ticket : Nat) (result : Except Error (List Row)) (awaited : List Nat) :
    (s.deliver other ticket result).1.ledgerOf key awaited = s.ledgerOf key awaited := by
  have arrived : (s.record (.arrived other ticket result)).ledgerOf key awaited = s.ledgerOf key awaited :=
    ledgerOf_record s (by simpa [Happening.about] using different) awaited
  cases delivered s other ticket result with
  | lost none done => rw [done]
  | accepted query active new calls done =>
    rw [done, calls.ledgerOf, takeResult, ledgerOf_update_other _ different _ (about_callback ..),
      arrived]
  | discarded query late done =>
    rw [done, ledgerOf_record _ (by simpa [Happening.about] using different), arrived]

/-- Delivering leaves no task that delivers. -/
theorem awaited_deliver (s : Session σ) (key ticket other : Nat) (result : Except Error (List Row)) :
    awaited other (s.deliver key ticket result).2 = [] :=
  awaited_quiet fun task member => ticket?_idle (continuation?_deliver s key ticket result task member) other

/-- A fetch that starts takes the next ticket and waits under it. -/
theorem ledgerOf_startFetch {key : Nat} {q : Query} (query : s.queries[key]? = some q)
    (waiting : List Nat) : (s.startFetch key (q.started + 1)).ledgerOf key waiting =
      ⟨some { q.bare with started := q.started + 1 },
        .fetched key (q.started + 1) :: s.trail (.query key), waiting⟩ :=
  ledgerOf_update s query _ rfl waiting

theorem ledgerOf_startFetch_other (s : Session σ) {other key : Nat} (different : other ≠ key)
    (ticket : Nat) (waiting : List Nat) :
    (s.startFetch other ticket).ledgerOf key waiting = s.ledgerOf key waiting :=
  ledgerOf_update_other s different _ rfl waiting

theorem ledger_fetch (s : Session σ) (key : Nat) (rest : List Task) :
    Ledger.Steps key (ledger key (s, rest)) (ledger key ((s.fetch key).1, (s.fetch key).2 ++ rest)) := by
  have start {q : Query} (query : s.queries[key]? = some q) (active : q.active = true) :
      Ledger.Step key (ledger key (s, rest)) ((s.startFetch key (q.started + 1)).ledgerOf key
        ((q.started + 1) :: awaited key rest)) := by
    have before : ledger key (s, rest) = ⟨some q.bare, s.trail (.query key), awaited key rest⟩ := by
      simp [ledger, Session.ledgerOf, query]
    rw [before, ledgerOf_startFetch query]
    exact .started active
  cases fetched s key with
  | idle inactive done => rw [done]; exact .refl
  | refused query active invalid done =>
    refine .head (start query active) ?_
    rw [done, ledger, awaited_append, awaited_deliver]
    exact ledgerOf_deliver ..
  | @started q query active call valid done =>
    have waits : awaited key ([.send call (.deliver key (q.started + 1))] ++ rest) =
        (q.started + 1) :: awaited key rest := by
      simp
    rw [done]
    simp only [ledger, waits]
    exact .single (start query active)

theorem ledger_fetch_other (s : Session σ) {other key : Nat} (different : other ≠ key)
    (rest : List Task) :
    ledger key ((s.fetch other).1, (s.fetch other).2 ++ rest) = ledger key (s, rest) := by
  cases fetched s other with
  | idle inactive done => rw [done]; rfl
  | refused query active invalid done =>
    rw [done, ledger, awaited_append, awaited_deliver, ledgerOf_deliver_other _ different,
      ledgerOf_startFetch_other s different]
    rfl
  | @started q query active call valid done =>
    have waits : awaited key ([.send call (.deliver other (q.started + 1))] ++ rest) =
        awaited key rest := by
      simp [different]
    rw [done, ledger, waits, ledgerOf_startFetch_other s different]
    rfl

/-! ## Steps -/

theorem awaited_cons_quiet {key : Nat} {task : Task} (quiet : task.ticket? key = none)
    (rest : List Task) : awaited key (task :: rest) = awaited key rest := by
  rw [awaited_cons, quiet]
  rfl

theorem ledgerOf_answer (s : Session σ) (call : Call) (key : Nat) (waits : List Nat) :
    (s.answer backend call).2.ledgerOf key waits = s.ledgerOf key waits := by
  obtain ⟨storage, replies, same⟩ := answered backend call s
  rw [same]
  rfl

theorem ledger_advance (s : Session σ) (task : Task) (rest : List Task) (key : Nat) :
    Ledger.Steps key (ledger key (s, task :: rest))
      (ledger key ((s.advance backend task).1, (s.advance backend task).2 ++ rest)) := by
  have step := advanced backend s task
  generalize s.advance backend task = p at step
  cases step with
  | performed quiet performed =>
    simp only [ledger, awaited_cons_quiet (quiet key), awaited_append,
      awaited_quiet fun task member => performed.quiet task member key, List.nil_append]
    exact performed.moves.ledgerOf key _
  | reopened quiet reopened idle =>
    simp only [ledger, awaited_cons_quiet (quiet key), awaited_append,
      awaited_quiet fun task member => ticket?_idle (idle task member) key, List.nil_append]
    exact reopened.ledgerOf key _
  | fetch other =>
    have kept : awaited key (.fetch other :: rest) = awaited key rest := awaited_cons_quiet rfl rest
    have before : ledger key (s, .fetch other :: rest) = ledger key (s, rest) := by
      simp only [ledger, kept]
    rw [before]
    by_cases same : other = key
    · subst same
      exact ledger_fetch s other rest
    · rw [ledger_fetch_other s same]
  | send call next =>
    simp only [ledger, advance, List.cons_append, List.nil_append, awaited_cons, Task.ticket?,
      Option.toList_none]
    rw [(alike_takeHook _ _ _).ledgerOf, ledgerOf_record s (by simp [Happening.about])]
  | answer call next =>
    simp only [ledger, advance, List.cons_append, List.nil_append, awaited_cons, Task.ticket?,
      Option.toList_none]
    rw [(alike_takeHook _ _ _).ledgerOf, ledgerOf_answer]
  | deliver call answer other ticket =>
    have returned : (s.record (.returned call answer)).ledgerOf key = s.ledgerOf key :=
      funext fun waits => ledgerOf_record s (by simp [Happening.about]) waits
    by_cases same : other = key
    · subst same
      have waits : awaited other (.resume call answer (.deliver other ticket) :: rest) =
          ticket :: awaited other rest := by
        simp
      simp only [ledger, waits, awaited_append, awaited_deliver, List.nil_append]
      rw [← returned]
      exact ledgerOf_deliver ..
    · have waits : awaited key (.resume call answer (.deliver other ticket) :: rest) =
          awaited key rest := by
        simp [same]
      simp only [ledger, waits, awaited_append, awaited_deliver, List.nil_append]
      rw [ledgerOf_deliver_other _ same, returned]

/-- Every step of a run is a row of changes of each query's ledger. -/
theorem Step.ledger (step : Step backend p p') (key : Nat) :
    Ledger.Steps key (Session.ledger key p) (Session.ledger key p') := by
  cases step with
  | advance s task rest => exact ledger_advance s task rest key
  | tick s tasks now => exact .refl
  | give s command =>
    rcases asked_cases backend .top s command with performed | ⟨reopened, outcome, tasks⟩
    · simp only [Session.ledger, awaited_quiet fun task member => performed.quiet task member key]
      exact performed.moves.ledgerOf key _
    · simp only [Session.ledger, tasks]
      exact reopened.ledgerOf key _

theorem Later.ledger (later : Later backend p p') (key : Nat) :
    Ledger.Steps key (Session.ledger key p) (Session.ledger key p') := by
  induction later with
  | refl => exact .refl
  | tail _ step ih => exact ih.trans (step.ledger key)

/-- The ledger of a query in a run has come from the blank one. -/
theorem Reachable.ledger (reachable : Reachable backend p) (key : Nat) :
    Ledger.Steps key .blank (Session.ledger key p) := by
  induction reachable with
  | start storage scripted now => exact .refl
  | step _ step ih => exact ih.trans (step.ledger key)

end Session

end LiveTable
