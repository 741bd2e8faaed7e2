import LiveTable.Proofs.Delivery
import LiveTable.Proofs.Registry
import LiveTable.Proofs.Serving

/-!
# Coherence

An active query holds what a selection on its table would give now, or a task promises that it will:
the query is to be fetched, or to be told of a change, or its latest fetch is to be answered or to be
delivered. Tasks keep their promises, and a change of the table makes a promise to all its queries.
So once nothing is left to do, every active query is up to date.
-/

namespace LiveTable

/-- What a query holds: its rows, or the error of its last fetch. -/
def Query.outcome (q : Query) : Except Error (List Row) :=
  match q.lastError with
  | none => .ok q.rows
  | some e => .error e

@[simp] theorem Query.outcome_take (q : Query) (ticket : Nat) (result : Except Error (List Row)) :
    (q.take ticket result).outcome = result := by cases result <;> rfl

/-- The query will hold what is current when the task and all that it sets off are done. -/
inductive Task.Promises (current : Except Error (List Row)) (key : Nat) (q : Query) : Task → Prop
  | fetch : Promises current key q (.fetch key)
  | round {event : ChangeEvent} {observers : List Observer} (told : .query key ∈ observers) :
    Promises current key q (.round event observers)
  | publish {call : Call} {answer : Answer} {event : ChangeEvent} {reading : Reading}
    {context : Context} (about : event.table = q.spec.table)
    (succeeded : ∀ message, answer ≠ .failed message) :
    Promises current key q (.resume call answer (.publish event reading context))
  | send {call : Call} (valid : Request.select q.spec = .ok call) :
    Promises current key q (.send call (.deliver key q.started))
  | answer {call : Call} (valid : Request.select q.spec = .ok call) :
    Promises current key q (.answer call (.deliver key q.started))
  | deliver {call : Call} {answer : Answer} (fresh : answer.toRows = current) :
    Promises current key q (.resume call answer (.deliver key q.started))

/-- A task promises that the query will be up to date, or the query is. -/
def Promised (current : Except Error (List Row)) (tasks : List Task) (key : Nat) (q : Query) : Prop :=
  (∃ task ∈ tasks, task.Promises current key q) ∨ q.delivered = q.started ∧ q.outcome = current

theorem Task.Promises.congr {current : Except Error (List Row)} {key : Nat} {q q' : Query} {task : Task}
    (promise : task.Promises current key q) (spec : q'.spec = q.spec)
    (started : q'.started = q.started) : task.Promises current key q' := by
  cases promise with
  | fetch => exact .fetch
  | round told => exact .round told
  | publish about succeeded => exact .publish (spec ▸ about) succeeded
  | send valid => exact started ▸ .send (spec ▸ valid)
  | answer valid => exact started ▸ .answer (spec ▸ valid)
  | deliver fresh => exact started ▸ .deliver fresh

/-- A promise is kept when a task is done if the task hands on its own. -/
theorem Promised.behind {current : Except Error (List Row)} {task : Task} {tasks rest : List Task}
    {key : Nat} {q : Query} (promised : Promised current (task :: rest) key q)
    (hands : task.Promises current key q → Promised current (tasks ++ rest) key q) :
    Promised current (tasks ++ rest) key q := by
  rcases promised with ⟨other, member, promise⟩ | shown
  · rcases List.mem_cons.mp member with rfl | member
    · exact hands promise
    · exact .inl ⟨other, List.mem_append_right _ member, promise⟩
  · exact .inr shown

/-- A query keeps the registration for its own table. -/
theorem Ledger.Steps.own {key : Nat} {ledger ledger' : Ledger} (steps : Ledger.Steps key ledger ledger')
    (own : ∀ q, ledger.query = some q → q.subscription.table = q.spec.table) :
    ∀ q, ledger'.query = some q → q.subscription.table = q.spec.table := by
  induction steps with
  | refl => exact own
  | tail _ step ih =>
    intro q query
    cases step with
    | opened active rows lastError started delivered own => cases query; exact own
    | @started former => cases query; exact ih former rfl
    | accepted result active new => cases query; simpa using ih _ rfl
    | discarded result late => exact ih q query
    | @disposed former => cases query; exact ih former rfl
    | lost => cases query

namespace Session

variable {σ ν : Type} {backend : Backend σ} {s s' : Session σ} {p p' : Progress σ} {spec : QuerySpec}
  {view : σ → ν} {calls : Call → Prop} {key : Nat} {q : Query}

/-- The query of a key, without the plan of its callbacks. -/
def bare? (s : Session σ) (key : Nat) : Option Query := (s.queries[key]?).map Query.bare

/-- Every active query of a spec is up to date, or promised to be. -/
def Coherent (backend : Backend σ) (spec : QuerySpec) (p : Progress σ) : Prop :=
  ∀ key q, p.1.bare? key = some q → q.active = true → q.spec = spec →
    Promised (backend.selected p.1.storage q.spec) p.2 key q

/-! ## Queries that stay -/

theorem lt_of_bare? (query : s.bare? key = some q) : key < s.queries.length := by
  obtain ⟨found, present, -⟩ := Option.map_eq_some_iff.mp query
  exact (List.getElem?_eq_some_iff.mp present).1

theorem bare?_disposeQuery (s : Session σ) (other : Nat) (query : (s.disposeQuery other).bare? key = some q)
    (active : q.active = true) : s.bare? key = some q := by
  cases queryDisposed s other with
  | idle inactive done => rwa [done] at query
  | ended found alive done =>
    rw [done] at query
    by_cases same : other = key
    · subst same
      have disposed := congrArg Ledger.query (ledgerOf_update s found
        (fun q => { q with active := false }) (h := .queryDisposed other) rfl [])
      cases query.symm.trans disposed
      cases active
    · have kept := congrArg Ledger.query (ledgerOf_update_other s same
        (fun q => { q with active := false }) (h := .queryDisposed other) rfl [])
      exact kept.symm.trans query

/-- A move leaves an active query as it was, unless it has opened it. -/
theorem Move.bare? (move : Move s s') (query : s'.bare? key = some q) (active : q.active = true) :
    s.queries.length ≤ key ∨ s.bare? key = some q := by
  cases move with
  | aside alike =>
    have same := congrArg Ledger.query (alike.ledgerOf key [])
    exact .inr (same.symm.trans query)
  | openQuery spec label plan =>
    refine (Nat.lt_or_ge key s.queries.length).symm.imp_right fun old => ?_
    simpa [Session.bare?, addQuery, List.getElem?_append_left old] using query
  | disposeQuery other => exact .inr (bare?_disposeQuery s other query active)
  | disposeWatch other =>
    rw [Session.bare?, queries_disposeWatch] at query
    exact .inr query
  | _ => exact .inr query

theorem Move.length_queries (move : Move s s') : s.queries.length ≤ s'.queries.length := by
  cases move with
  | aside alike => exact Nat.le_of_eq alike.length_queries.symm
  | openQuery spec label plan => simp [addQuery]
  | disposeQuery other => exact Nat.le_of_eq (length_disposeQuery s other).symm
  | disposeWatch other =>
    exact Nat.le_of_eq (congrArg List.length (queries_disposeWatch s other)).symm
  | _ => exact Nat.le_refl _

theorem Moves.length_queries (moves : Moves s s') : s.queries.length ≤ s'.queries.length := by
  induction moves with
  | refl => exact Nat.le_refl _
  | tail _ move ih => exact Nat.le_trans ih move.length_queries

theorem Moves.bare? (moves : Moves s s') (query : s'.bare? key = some q) (active : q.active = true) :
    s.queries.length ≤ key ∨ s.bare? key = some q := by
  induction moves with
  | refl => exact .inr query
  | tail moves move ih =>
    rcases move.bare? query active with new | old
    · exact .inl (Nat.le_trans (Moves.length_queries moves) new)
    · exact ih old

/-! ## Moves keep promises -/

/-- Moves keep every promise if the tasks of the promises are handed on, and the queries that they
open are to be fetched. -/
theorem Coherent.moved {tasks tasks' : List Task} (coherent : Coherent backend spec (s, tasks))
    (moves : Moves s s')
    (fetches : ∀ key, s.queries.length ≤ key → key < s'.queries.length → .fetch key ∈ tasks')
    (hands : ∀ key q, s.bare? key = some q → q.active = true →
      ∀ task ∈ tasks, task.Promises (backend.selected s.storage q.spec) key q →
        ∃ other ∈ tasks', other.Promises (backend.selected s.storage q.spec) key q) :
    Coherent backend spec (s', tasks') := by
  intro key q query active about
  rw [moves.storage]
  rcases moves.bare? query active with new | old
  · exact .inl ⟨.fetch key, fetches key new (lt_of_bare? query), .fetch⟩
  · rcases coherent key q old active about with ⟨task, member, promise⟩ | shown
    · exact .inl (hands key q old active task member promise)
    · exact .inr shown

/-- Performing keeps every promise if what is done now hands on its own. -/
theorem Coherent.performed {task : Task} {rest : List Task}
    (coherent : Coherent backend spec (s, task :: rest)) (performed : Performed s p)
    (hands : ∀ key q, s.bare? key = some q → q.active = true →
      task.Promises (backend.selected s.storage q.spec) key q →
        ∃ other ∈ p.2, other.Promises (backend.selected s.storage q.spec) key q) :
    Coherent backend spec (p.1, p.2 ++ rest) := by
  refine coherent.moved performed.moves
    (fun key low high => List.mem_append_left _ (performed.fetches key low high)) ?_
  intro key q query active other member promise
  rcases List.mem_cons.mp member with rfl | member
  · obtain ⟨heir, present, promise⟩ := hands key q query active promise
    exact ⟨heir, List.mem_append_left _ present, promise⟩
  · exact ⟨other, List.mem_append_right _ member, promise⟩

/-! ## Who is told of a change -/

theorem own_subscription (reachable : Reachable backend p) (query : p.1.bare? key = some q) :
    q.subscription.table = q.spec.table :=
  (reachable.ledger key).own (by simp [Ledger.blank]) q query

/-- An active query is told of every change of its table. -/
theorem observes (reachable : Reachable backend p) (once : .asked .reopen ∉ p.1.history)
    (query : p.1.bare? key = some q) (active : q.active = true) :
    .query key ∈ p.1.bus.observers q.spec.table := by
  obtain ⟨found, present, rfl⟩ := Option.map_eq_some_iff.mp query
  have holds : p.1.registry.held (.query key) = some (found.subscription, true) := by
    simp only [registry, held, present, Option.map_some]
    exact congrArg (fun alive => some (found.subscription, alive)) active
  have registered := reachable.complete once (.query key) found.subscription holds
  have own : found.bare.subscription.table = found.bare.spec.table := own_subscription reachable query
  rw [← own]
  exact List.mem_map.mpr ⟨_, registered, rfl⟩

variable {current : Except Error (List Row)} {rest : List Task}

theorem hands_round {event : ChangeEvent} {observers : List Observer}
    (promise : (Task.round event observers).Promises current key q) :
    ∃ other ∈ (s.advance backend (.round event observers)).2, other.Promises current key q := by
  cases promise with
  | round told =>
    cases observers with
    | nil => cases told
    | cons observer later =>
      rcases List.mem_cons.mp told with rfl | told
      · exact ⟨.fetch key, List.mem_cons_self .., .fetch⟩
      · exact ⟨.round event later, List.mem_append_right _ (List.mem_singleton_self _), .round told⟩

theorem hands_publish {call : Call} {answer : Answer} {event : ChangeEvent} {reading : Reading}
    {context : Context} (fits : (Continuation.publish event reading context).Fits call)
    (told : .query key ∈ s.bus.observers q.spec.table)
    (promise : (Task.resume call answer (.publish event reading context)).Promises current key q) :
    ∃ other ∈ (s.advance backend (.resume call answer (.publish event reading context))).2,
      other.Promises current key q := by
  cases promise with
  | publish about succeeded =>
    simp only [advance, resume]
    cases outcome : reading.outcome answer with
    | error e =>
      obtain ⟨message, failed, -⟩ := (fits.2 answer e).mp outcome
      exact absurd failed (succeeded message)
    | ok result => exact ⟨_, List.mem_cons_self .., .round (about ▸ told)⟩

/-! ## Calls -/

theorem Coherent.send {call : Call} {next : Continuation}
    (coherent : Coherent backend spec (s, .send call next :: rest)) :
    Coherent backend spec ((s.advance backend (.send call next)).1,
      (s.advance backend (.send call next)).2 ++ rest) := by
  have hook := alike_takeHook (s.record (.sent call)) call.kind .before
  refine coherent.moved (.head (.record s rfl) hook.moves)
    (fun key low high => absurd (hook.length_queries ▸ high) (Nat.not_lt.mpr low)) ?_
  intro key q query active task member promise
  rcases List.mem_cons.mp member with rfl | member
  · cases promise with
    | send valid => exact ⟨.answer call (.deliver key q.started), by simp [advance], .answer valid⟩
  · exact ⟨task, List.mem_append_right _ member, promise⟩

/-- The answer to a fetch is current; a call that changes the table promises an event. -/
theorem Coherent.answer (follows : backend.Follows spec view calls) {call : Call}
    {next : Continuation} (plain : s.replies = []) (sent : calls call) (fits : next.Fits call)
    (coherent : Coherent backend spec (s, .answer call next :: rest)) :
    Coherent backend spec ((s.advance backend (.answer call next)).1,
      (s.advance backend (.answer call next)).2 ++ rest) := by
  intro key q query active about
  have hook := alike_takeHook (s.answer backend call).2 call.kind .after
  obtain ⟨answers, storage, -⟩ := answer_plain backend plain call
  have now : (s.advance backend (.answer call next)).1.storage = (backend.answer call s.storage).2 :=
    hook.storage.trans storage
  have kept := congrArg Ledger.query ((hook.ledgerOf key []).trans (ledgerOf_answer s call key []))
  have old : s.bare? key = some q := kept.symm.trans query
  have returns : Task.resume call (s.answer backend call).1 next ∈
      (s.advance backend (.answer call next)).2 ++ rest := by simp [advance]
  rw [now]
  by_cases same : view (backend.answer call s.storage).2 = view s.storage
  · rw [about, follows.selected_eq same, ← about]
    refine (coherent key q old active about).behind fun promise => ?_
    cases promise with
    | answer valid =>
      refine .inl ⟨_, returns, .deliver ?_⟩
      rw [answers, Backend.selected, valid]
      rfl
  · obtain ⟨⟨event, announces, place⟩, succeeds⟩ := follows.changed sent same
    cases next with
    | publish announced reading context =>
      cases announces.symm.trans fits.1
      exact .inl ⟨_, returns, .publish (about ▸ place) (answers ▸ succeeds)⟩
    | _ => cases announces.symm.trans fits

/-! ## Fetches -/

theorem bare?_fetch_other {other : Nat} (s : Session σ) (different : other ≠ key) :
    (s.fetch other).1.bare? key = s.bare? key :=
  congrArg Ledger.query (ledger_fetch_other s different [])

/-- A fetch is on its way to the storage, or it failed at once, as a selection would. -/
theorem promised_fetch (ordered : ∀ q, s.bare? key = some q → q.delivered ≤ q.started)
    (query : (s.fetch key).1.bare? key = some q) (active : q.active = true) :
    Promised (backend.selected s.storage q.spec) (s.fetch key).2 key q := by
  cases fetched s key with
  | idle inactive done =>
    rw [done] at query
    obtain ⟨r, found, rfl⟩ := Option.map_eq_some_iff.mp query
    cases active.symm.trans (inactive r found)
  | started found alive valid done =>
    have starts := congrArg Ledger.query (ledgerOf_startFetch found [])
    rw [done] at query ⊢
    cases query.symm.trans starts
    exact .inl ⟨_, List.mem_singleton_self _, .send valid⟩
  | @refused r found alive e invalid done =>
    have older : r.delivered ≤ r.started := ordered r.bare (congrArg (Option.map Query.bare) found)
    have start : (s.startFetch key (r.started + 1)).queries[key]? =
        some { r with started := r.started + 1 } := by
      simp [startFetch, record, getElem?_setQuery, found]
    have fails := congrArg Ledger.query (ledgerOf_accept start alive (Nat.le_succ_of_le older)
      (.error e) [])
    rw [done] at query ⊢
    cases query.symm.trans fails
    refine .inr ⟨rfl, ?_⟩
    rw [Query.outcome_take, Query.spec_take, Backend.selected]
    show Except.error e = (Request.select r.spec).bind _
    rw [invalid]
    rfl

theorem Coherent.fetch {other : Nat} (reachable : Reachable backend (s, .fetch other :: rest))
    (coherent : Coherent backend spec (s, .fetch other :: rest)) :
    Coherent backend spec ((s.fetch other).1, (s.fetch other).2 ++ rest) := by
  intro key q query active about
  rw [(backed_fetch s other).storage]
  by_cases same : other = key
  · subst same
    rcases promised_fetch (fun q query => (reachable.inOrder query).delivered_le_started) query
      active with ⟨task, member, promise⟩ | shown
    · exact .inl ⟨task, List.mem_append_left _ member, promise⟩
    · exact .inr shown
  · rw [bare?_fetch_other s same] at query
    refine (coherent key q query active about).behind fun promise => ?_
    cases promise
    exact absurd rfl same

/-- The result of the latest fetch brings the query up to date; any other result breaks no promise. -/
theorem promised_deliver {call : Call} {answer : Answer} {ticket : Nat}
    (ordered : ∀ r, s.bare? key = some r → ∃ past waiting, InOrder key r past (ticket :: waiting))
    (coherent : Coherent backend spec (s, .resume call answer (.deliver key ticket) :: rest))
    (query : (s.deliver key ticket answer.toRows).1.bare? key = some q) (active : q.active = true)
    (about : q.spec = spec) :
    Promised (backend.selected s.storage q.spec)
      ((s.deliver key ticket answer.toRows).2 ++ rest) key q := by
  cases delivered s key ticket answer.toRows with
  | lost none done =>
    rw [done] at query
    cases (congrArg (Option.map Query.bare) none).symm.trans query
  | @accepted r found alive new s' script calls done =>
    have former : s.bare? key = some r.bare := congrArg (Option.map Query.bare) found
    have takes := congrArg Ledger.query (ledgerOf_accept found alive new answer.toRows [])
    cases query.symm.trans takes
    obtain ⟨past, waiting, order⟩ := ordered r.bare former
    rcases coherent key r.bare former alive (by simpa using about) with
      ⟨task, member, promise⟩ | ⟨level, -⟩
    · rcases List.mem_cons.mp member with rfl | member
      · cases promise with
        | deliver fresh => exact .inr ⟨by simp, by simpa using fresh⟩
      · refine .inl ⟨task, List.mem_append_right _ member, ?_⟩
        simpa using promise.congr (Query.spec_take ..) (Query.started_take ..)
    · have last : ticket ≤ r.delivered := level ▸ order.le_started
      exact absurd (Nat.le_antisymm last new) order.waiting_ne
  | @discarded r found late done =>
    have former : s.bare? key = some r.bare := congrArg (Option.map Query.bare) found
    have drops := congrArg Ledger.query (ledgerOf_discard found late answer.toRows [])
    cases query.symm.trans drops
    obtain ⟨past, waiting, order⟩ := ordered r.bare former
    refine (coherent key r.bare former active about).behind fun promise => ?_
    cases promise with
    | deliver fresh => exact absurd order.delivered_le_started (Nat.not_le.mpr (late active))

theorem Coherent.deliver {call : Call} {answer : Answer} {other ticket : Nat}
    (reachable : Reachable backend (s, .resume call answer (.deliver other ticket) :: rest))
    (coherent : Coherent backend spec (s, .resume call answer (.deliver other ticket) :: rest)) :
    Coherent backend spec
      ((s.advance backend (.resume call answer (.deliver other ticket))).1,
        (s.advance backend (.resume call answer (.deliver other ticket))).2 ++ rest) := by
  have backed := backed_deliver (s.record (.returned call answer)) other ticket answer.toRows
  intro key q query active about
  show Promised (backend.selected ((s.record (.returned call answer)).deliver other ticket
    answer.toRows).1.storage q.spec) _ key q
  rw [backed.storage]
  by_cases same : other = key
  · subst same
    refine promised_deliver ?_ coherent query active about
    intro r found
    exact ⟨_, awaited other rest, by simpa using reachable.inOrder found⟩
  · have kept := congrArg Ledger.query (ledgerOf_deliver_other (s.record (.returned call answer)) same
      ticket answer.toRows [])
    refine (coherent key q (kept.symm.trans query) active about).behind fun promise => ?_
    cases promise
    exact absurd rfl same

/-! ## Runs -/

theorem Coherent.advance (follows : backend.Follows spec view calls) {task : Task}
    (reachable : Reachable backend (s, task :: rest))
    (undisturbed : Undisturbed calls (s.advance backend task).1)
    (coherent : Coherent backend spec (s, task :: rest)) :
    Coherent backend spec ((s.advance backend task).1, (s.advance backend task).2 ++ rest) := by
  have former : Undisturbed calls s := undisturbed.earlier (advanced backend s task).history
  have fitting := reachable.fitting task (List.mem_cons_self ..)
  cases task with
  | script commands =>
    rcases script_cases backend s commands with performed | ⟨reopened, -⟩
    · refine coherent.performed performed ?_
      intro key q query active promise
      cases promise
    · exact absurd reopened.asked undisturbed.once
  | round event observers =>
    refine coherent.performed (performed_round backend s event observers) ?_
    intro key q query active promise
    exact hands_round promise
  | fetch key => exact coherent.fetch reachable
  | send call next => exact coherent.send
  | answer call next =>
    obtain ⟨fits, sends | sent⟩ := fitting call next rfl
    · cases sends
    · exact coherent.answer follows (reachable.plain former) (former.sent call sent) fits
  | resume call answer next =>
    cases next with
    | deliver key ticket => exact coherent.deliver reachable
    | publish event reading context =>
      refine coherent.performed (performed_returned backend s call answer fun _ => rfl) ?_
      intro key q query active promise
      exact hands_publish (fitting call _ rfl).1 (observes reachable former.once query active) promise
    | conclude reading context =>
      refine coherent.performed (performed_returned backend s call answer fun _ => rfl) ?_
      intro key q query active promise
      cases promise
    | addColumns table columns context =>
      refine coherent.performed (performed_returned backend s call answer fun _ => rfl) ?_
      intro key q query active promise
      cases promise
  | keepQuery label key context =>
    refine coherent.performed (performed_keepQuery s label key context) ?_
    intro key q query active promise
    cases promise
  | keepWatch label key context =>
    refine coherent.performed (performed_keepWatch s label key context) ?_
    intro key q query active promise
    cases promise
  | conclude context outcome =>
    refine coherent.performed (performed_conclude backend s context outcome) ?_
    intro key q query active promise
    cases promise

/-- At every point of an undisturbed run, every active query is up to date or promised to be. -/
theorem Reachable.coherent (reachable : Reachable backend p) (follows : backend.Follows spec view calls)
    (undisturbed : Undisturbed calls p.1) : Coherent backend spec p := by
  induction reachable with
  | start storage scripted now => intro key q query; cases query
  | step former step ih =>
    have coherent := ih (undisturbed.earlier step.history)
    cases step with
    | advance s task rest => exact coherent.advance follows former undisturbed
    | tick s tasks now => exact coherent
    | give s command =>
      rcases asked_cases backend .top s command with performed | ⟨reopened, -⟩
      · refine coherent.moved performed.moves performed.fetches ?_
        intro key q query active task member
        cases member
      · exact absurd reopened.asked undisturbed.once

/-- Once nothing is left to do, every active query holds what a selection would give now: its rows if
the selection would succeed, and else its error. That is what the command to select gives, if nothing
runs inside of it. -/
theorem query_current (reachable : Reachable backend (s, [])) (query : s.queries[key]? = some q)
    (active : q.active = true) (serves : backend.Serves q.spec.table view calls)
    (undisturbed : Undisturbed calls s) :
    (q.lastError = none → s.selected backend q.spec = .ok q.rows) ∧
      (∀ e, q.lastError = some e → s.selected backend q.spec = .error e) ∧
      (s.hooks = [] → (s.give backend q.spec.command).outcome = .ofExcept .rows q.outcome) := by
  have promised := reachable.coherent serves.follows undisturbed key q.bare
    (congrArg (Option.map Query.bare) query) active rfl
  have current : s.selected backend q.spec = q.outcome := by
    rw [selected_plain (reachable.plain undisturbed)]
    rcases promised with ⟨task, none, -⟩ | ⟨-, shown⟩
    · cases none
    · exact shown.symm
  refine ⟨fun none => ?_, fun e failed => ?_, fun hookless => ?_⟩
  · rw [current, Query.outcome, none]
  · rw [current, Query.outcome, failed]
  · rw [outcome_select hookless, current]

/-- A storage that counts the rows of its tables. -/
def counting : Backend (Ordered Nat) where
  answer call counts :=
    match call.statement with
    | .createTable table _ =>
      (.done, if (counts.get? table).isNone then counts.insert table 0 else counts)
    | .insert table _ =>
      match counts.get? table with
      | none => (.failed "no such table", counts)
      | some n => (.changed 0 1, counts.insert table (n + 1))
    | .select _ table _ _ =>
      match counts.get? table with
      | none => (.failed "no such table", counts)
      | some n => (.rows (List.replicate n .empty), counts)
    | _ => (.blank call.kind, counts)
  reopen counts := .ok counts

theorem serves_counting (table : String) : counting.Serves table (·.get? table) fun _ => True where
  selects := by
    intro spec call about valid a b same
    obtain ⟨-, -, predicate, -, -, rfl⟩ := Request.select_eq_ok.mp valid
    subst about
    simp only [counting, show a.get? spec.table = b.get? spec.table from same]
    cases b.get? spec.table <;> rfl
  fails := by
    rintro ⟨kind, statement, params⟩ - counts message failed
    cases statement with
    | createTable name columns => cases failed
    | insert name columns =>
      simp only [counting] at failed ⊢
      cases found : counts.get? name with
      | none => rfl
      | some n => rw [found] at failed; cases failed
    | select projection name tests keys =>
      simp only [counting]
      cases counts.get? name <;> rfl
    | _ => rfl
  spares := by
    rintro ⟨kind, statement, params⟩ - other counts
    cases statement with
    | createTable name columns =>
      have different : name ≠ table := fun same => other (congrArg some same)
      simp only [counting]
      split
      · rw [Ordered.get?_insert, if_neg different]
      · rfl
    | insert name columns =>
      have different : name ≠ table := fun same => other (congrArg some same)
      simp only [counting]
      cases counts.get? name with
      | none => rfl
      | some n => exact (Ordered.get?_insert ..).trans (if_neg different)
    | select projection name tests keys =>
      simp only [counting]
      cases counts.get? name <;> rfl
    | _ => rfl

/-- A query whose refresh has an answer that is out of date when it returns: a row is inserted in
between. -/
def outdated : Progress (Ordered Nat) := play counting 60 (.start .empty true 0, []) [
  .createTable "t" (.pairs []),
  .openQuery "t" [] (.value ⟨[]⟩) (.value ⟨[]⟩) "q" [],
  .hook .query .after [.insert "t" (.value .empty)],
  .refresh "q"]

theorem undisturbed_outdated : Undisturbed (fun _ => True) outdated.1 := by
  have plain : outdated.1.history.all (fun h => match h with
      | .asked (.reply _) => false
      | .asked .reopen => false
      | _ => true) = true := rfl
  refine ⟨fun call sent => trivial, fun replies asked => ?_, fun asked => ?_⟩
  · cases List.all_eq_true.mp plain _ asked
  · cases List.all_eq_true.mp plain _ asked

theorem outdated_current : Reachable counting (outdated.1, []) ∧
    ∃ q, outdated.1.queries[0]? = some q ∧ q.active = true ∧
      (outdated.1.trail (.query 0)).head? = some (.discarded 0 2) ∧
      counting.Serves q.spec.table (·.get? q.spec.table) (fun _ => True) ∧
      Undisturbed (fun _ => True) outdated.1 ∧
      q.lastError = none ∧ q.rows = [.empty] ∧
      (q.lastError = none → outdated.1.selected counting q.spec = .ok q.rows) ∧
      (∀ e, q.lastError = some e → outdated.1.selected counting q.spec = .error e) ∧
      (outdated.1.hooks = [] →
        (outdated.1.give counting q.spec.command).outcome = .ofExcept .rows q.outcome) := by
  have played : Reachable counting outdated := reachable_play ..
  have ended : outdated = (outdated.1, []) := Prod.ext rfl rfl
  have reachable : Reachable counting (outdated.1, []) := ended ▸ played
  have query : outdated.1.queries[0]? = some _ := rfl
  have serves := serves_counting "t"
  exact ⟨reachable, _, query, rfl, rfl, serves, undisturbed_outdated, rfl, rfl,
    query_current reachable query rfl serves undisturbed_outdated⟩

end Session

end LiveTable
