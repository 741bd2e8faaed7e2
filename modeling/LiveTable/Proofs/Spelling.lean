import LiveTable.Proofs.Coherence
import LiveTable.Proofs.Promptness
import LiveTable.Proofs.Spared

/-!
# Tables under their exact names

Observers are registered for a table under its exact name, and a write is announced under the name that it
was given, although the storage compares the names of tables without regard to case. A write that succeeds
has those queries and watches react, and those alone, that were opened under the very name of the write. So a
query is up to date as long as its table is changed under the name of the query, and it is not told when the
table is changed under another spelling.
-/

namespace LiveTable

/-- The call inserts into, updates or deletes from the table of a name, for the store. -/
inductive Call.Writes (table : String) (call : Call) : Prop
  | insert {now : Int64} {row : Row} (made : Request.insert now table row = .ok call)
  | update {filter : Filter} {row : Row} (made : Request.update table filter row = .ok call)
  | delete {filter : Filter} (made : Request.delete table filter = .ok call)

theorem Call.Writes.announced {table : String} {call : Call} (writes : call.Writes table) :
    ∃ event, call.event? = some event ∧ event.table = table := by
  cases writes with
  | insert made =>
    obtain ⟨-, -, rfl⟩ := Request.insert_eq_ok.mp made
    exact ⟨_, rfl, rfl⟩
  | update made =>
    obtain ⟨-, -, predicate, -, rfl⟩ := Request.update_eq_ok.mp made
    exact ⟨_, rfl, rfl⟩
  | delete made =>
    obtain ⟨-, predicate, -, rfl⟩ := Request.delete_eq_ok.mp made
    exact ⟨_, rfl, rfl⟩

namespace Session

variable {σ : Type} {backend : Backend σ} {s s' : Session σ} {p p' : Progress σ} {observer : Observer}
  {stake : Stake}

/-- The bus lists a query or a watch at the exact name of its table, as long as it is active. -/
theorem Reachable.listed (reachable : Reachable backend p) (once : .asked .reopen ∉ p.1.history)
    (there : p.1.scene.stake? observer = some stake) (table : String) :
    observer ∈ p.1.bus.observers table ↔ stake.table = table ∧ stake.active = true := by
  cases observer with
  | listener key => cases there
  | query key =>
    obtain ⟨q, query, rfl⟩ : ∃ q, p.1.queries[key]? = some q ∧ q.stake = stake := by
      simpa [Scene.stake?, scene] using there
    have holds : p.1.held (.query key) = some (q.subscription, q.active) := by simp [held, query]
    rw [reachable.listed_iff once rfl holds, reachable.local_query query]
    rfl
  | watch key =>
    obtain ⟨w, watch, rfl⟩ : ∃ w, p.1.watches[key]? = some w ∧ w.stake = stake := by
      simpa [Scene.stake?, scene] using there
    have holds : p.1.held (.watch key) = some (w.subscription, w.active) := by simp [held, watch]
    rw [reachable.listed_iff once rfl holds, reachable.local_watch watch]
    rfl

/-! ## Turns in a publish -/

/-- An active query starts a fetch when it is told to. -/
theorem fetched_fetch {key : Nat} {q : Query} (query : s.queries[key]? = some q) (active : q.active = true) :
    ∃ ticket, .fetched key ticket :: s.history <:+ (s.fetch key).1.history := by
  cases fetched s key with
  | idle inactive done => cases active.symm.trans (inactive q query)
  | started found alive valid done =>
    rw [done]
    exact ⟨_, List.suffix_rfl⟩
  | @refused r found alive e invalid done =>
    obtain ⟨new, grown, -⟩ := (quiet_deliver (s.startFetch key (r.started + 1)) key (r.started + 1)
      (.error e)).2.1
    rw [done, grown]
    exact ⟨_, List.suffix_append ..⟩

variable (backend) in
/-- An active query or watch reacts when it is called. -/
theorem reacts_notify (event : ChangeEvent) (there : s.scene.stake? observer = some stake)
    (active : stake.active = true) :
    observer ∈ (since s ((s.notify event observer).1.run backend
      (s.notify event observer).2)).filterMap Happening.reaction? := by
  cases observer with
  | listener key => cases there
  | query key =>
    obtain ⟨q, query, rfl⟩ : ∃ q, s.queries[key]? = some q ∧ q.stake = stake := by
      simpa [Scene.stake?, scene] using there
    obtain ⟨ticket, starts⟩ := fetched_fetch query active
    have turn : (s.notify event (.query key)).1.run backend (s.notify event (.query key)).2 =
        (s.fetch key).1.run backend ((s.fetch key).2 ++ []) := by
      simp only [notify]
      rw [run, advance]
    rw [turn]
    exact List.mem_filterMap.mpr ⟨_, mem_since (starts.trans (history_run ..)), rfl⟩
  | watch key =>
    obtain ⟨w, watch, rfl⟩ : ∃ w, s.watches[key]? = some w ∧ w.stake = stake := by
      simpa [Scene.stake?, scene] using there
    have alive : w.active = true := active
    have calls := alike_watchScript (s.record (.notified key w.label)) key
    have starts : .notified key w.label :: s.history <:+ (s.notify event (.watch key)).1.history := by
      simp only [notify, watch, alive, if_true]
      rw [calls.history]
      exact List.suffix_rfl
    exact List.mem_filterMap.mpr ⟨_, mem_since (starts.trans (history_run ..)), rfl⟩

variable (backend) in
/-- Every query and watch that is active when a round begins has its turn in it, unless it is ended before. -/
theorem reacts_round (event : ChangeEvent) {observers : List Observer} (listed : observer ∈ observers)
    (there : s.scene.stake? observer = some stake) (active : stake.active = true) :
    observer ∈ (since s (s.run backend [.round event observers])).filterMap Happening.reaction? ∨
      (s.run backend [.round event observers]).scene.stake? observer =
        some { stake with active := false } := by
  induction observers generalizing s stake with
  | nil => cases listed
  | cons first rest ih =>
    -- The turn of the first observer comes before the rest of the round.
    let turn := s.notify event first
    let between := turn.1.run backend turn.2
    have split : s.run backend [.round event (first :: rest)] = between.run backend [.round event rest] := by
      rw [run, advance, List.append_nil]
      exact run_append turn.1 turn.2 _
    have first' : s.history <:+ between.history := by
      have notified : s.history <:+ turn.1.history := (performed_notify event s first).moves.history
      exact notified.trans (history_run ..)
    have parts : since s (s.run backend [.round event (first :: rest)]) = since s between ++
        since between (between.run backend [.round event rest]) := by
      rw [split]
      exact since_trans first' (history_run ..)
    rw [parts, List.filterMap_append, List.mem_append, split]
    rcases List.mem_cons.mp listed with rfl | later
    · exact .inl (.inl (reacts_notify backend event there active))
    · have passed : Later backend (s, [.round event (first :: rest)]) (between, [.round event rest]) := by
        refine .head (.advance s (.round event (first :: rest)) []) ?_
        rw [List.append_nil]
        exact later_run backend turn.1 turn.2 [.round event rest]
      have finishes := later_run backend between [.round event rest] []
      obtain ⟨alive, still, -⟩ := passed.keeps observer stake there
      cases alive with
      | true => exact (ih later still rfl).imp_left .inr
      | false =>
        obtain ⟨alive, after, never⟩ := finishes.keeps observer _ still
        cases alive with
        | true => cases never rfl
        | false => exact .inr after

variable (backend) in
/-- When a call comes back that succeeded, its event is published next, and those who are listed react. -/
theorem reacts_publish (call : Call) {answer : Answer} (event : ChangeEvent) {reading : Reading}
    (context : Context) {result : Outcome} (read : reading.outcome answer = .ok result) :
    ∃ later, since s (s.run backend [.resume call answer (.publish event reading context)]) =
        .returned call answer :: .published event (s.bus.observers event.table) :: later ∧
      ∀ observer ∈ s.bus.observers event.table, ∀ stake, s.scene.stake? observer = some stake →
        stake.active = true → observer ∈ later.filterMap Happening.reaction? ∨
          (s.run backend [.resume call answer (.publish event reading context)]).scene.stake? observer =
            some { stake with active := false } := by
  let observers := s.bus.observers event.table
  let told := (s.record (.returned call answer)).record (.published event observers)
  let called := told.run backend [.round event observers]
  have split : s.run backend [.resume call answer (.publish event reading context)] =
      called.run backend [.conclude context result] := by
    rw [run, advance]
    simp only [resume, read, publish]
    exact run_append told [.round event observers] [.conclude context result]
  have tells : since s told = [.returned call answer, .published event observers] :=
    since_of_history (show told.history = [_, _] ++ s.history from rfl)
  have begins : s.history <:+ told.history := List.suffix_append [_, _] s.history
  have calls : told.history <:+ called.history := history_run ..
  have ends : called.history <:+ (called.run backend [.conclude context result]).history := history_run ..
  rw [split]
  refine ⟨since told (called.run backend [.conclude context result]), ?_, ?_⟩
  · rw [since_trans begins (calls.trans ends), tells]
    rfl
  · intro observer listed stake there active
    rw [since_trans calls ends, List.filterMap_append, List.mem_append]
    rcases reacts_round backend event listed (s := told) there active with reacts | ended
    · exact .inl (.inl reacts)
    · obtain ⟨alive, after, never⟩ := (later_run backend called [.conclude context result] []).keeps
        observer _ ended
      cases alive with
      | true => cases never rfl
      | false => exact .inr after

/-! ## Queries that are told of every change -/

/-- Once nothing is left to do, an active query holds what its selection would give now, if the selection
stands apart and its table was changed under the name of the query only. -/
theorem holds_current {ν : Type} {view : σ → ν} (reachable : Reachable backend (s, [])) {key : Nat} {q : Query}
    (query : s.queries[key]? = some q) (active : q.active = true)
    (separates : backend.Separates q.spec view)
    (undisturbed : Undisturbed (Call.Spells q.spec.table) s) :
    q.outcome = backend.selected s.storage q.spec := by
  have promised := reachable.coherent separates.follows undisturbed key q.bare
    (congrArg (Option.map Query.bare) query) active rfl
  rcases promised with ⟨task, none, -⟩ | ⟨-, shown⟩
  · cases none
  · exact shown

/-- A write through the store that succeeds is announced under its own name, and of all queries and watches
it calls exactly those that are active and were opened under that very name; each of them reacts, unless it is
ended before its turn. So if a table was changed under one name only, then every active query that was opened
under this name, and whose selection stands apart, holds what the table has, once nothing is left to do. -/
theorem exact_name_followed (reachable : Reachable backend p) (once : .asked .reopen ∉ p.1.history) :
    (∀ n call answer next rest, p.2 = .resume call answer next :: rest → call.Writes n →
      (∀ message, answer ≠ .failed message) → ∃ event observers later, event.table = n ∧
        since p.1 (p.1.run backend [.resume call answer next]) =
          .returned call answer :: .published event observers :: later ∧
        ∀ observer stake, p.1.scene.stake? observer = some stake →
          (observer ∈ observers ↔ stake.table = n ∧ stake.active = true) ∧
          (stake.table = n → stake.active = true → observer ∈ later.filterMap Happening.reaction? ∨
            (p.1.run backend [.resume call answer next]).scene.stake? observer =
              some { stake with active := false })) ∧
    (p.2 = [] → ∀ (key : Nat) (q : Query), p.1.queries[key]? = some q → q.active = true →
      ∀ (ν : Type) (view : σ → ν), backend.Separates q.spec view →
        Undisturbed (Call.Spells q.spec.table) p.1 → q.outcome = backend.selected p.1.storage q.spec) := by
  obtain ⟨s, tasks⟩ := p
  constructor
  · rintro n call answer next rest rfl writes succeeded
    obtain ⟨event, announced, rfl⟩ := writes.announced
    obtain ⟨fits, -⟩ := reachable.fitting _ (List.mem_cons_self ..) call next rfl
    cases next with
    | publish other reading context =>
      cases announced.symm.trans fits.1
      cases read : reading.outcome answer with
      | error e =>
        obtain ⟨message, failed, -⟩ := (fits.2 answer e).mp read
        exact absurd failed (succeeded message)
      | ok result =>
        obtain ⟨later, happened, react⟩ := reacts_publish backend call event context read (s := s)
        refine ⟨event, _, later, rfl, happened, fun observer stake there => ?_⟩
        have listed := reachable.listed once there event.table
        exact ⟨listed, fun own active => react observer (listed.mpr ⟨own, active⟩) stake there active⟩
    | _ => cases announced.symm.trans fits
  · rintro rfl key q query active ν view separates undisturbed
    exact holds_current reachable query active separates undisturbed

/-- A query and a watch of a table of notes that has none. -/
def onlookers : Progress Database := play Database.memoryBackend 20 (.start .inMemory true 0, []) [
  .createTable "notes" ["title:text"],
  .openQuery "notes" [] (.value ⟨[]⟩) (.value ⟨[]⟩) "q" [],
  .openWatch "notes" "w" []]

/-- A number of steps after a note is inserted under a name of the table. -/
def noted (bound : Nat) (name : String) : Progress Database :=
  play Database.memoryBackend bound onlookers [.insert name (.value (.ofList [("title", .text "a")]))]

/-- The call that inserts the note. -/
def noteInsertion (name : String) : Call :=
  ⟨.run, .insert name ["title", "added"], [.text "a", .integer 0]⟩

/-- The call of the query. -/
def notesSelection : Call := ⟨.query, .select ["*"] "notes" [] [], []⟩

/-- The call that comes back next, if it is the only task, with its answer. -/
def comesBack? : List Task → Option (Call × Answer)
  | [.resume call answer _] => some (call, answer)
  | _ => none

theorem writes_noteInsertion (name : String) (identifier : isIdentifier name = true) :
    (noteInsertion name).Writes name := by
  have made : Request.insert 0 name (.ofList [("title", .text "a")]) = .ok (noteInsertion name) :=
    Request.insert_eq_ok.mpr ⟨checkName_eq_ok.mpr identifier, by decide, rfl⟩
  exact .insert made

theorem reachable_onlookers : Reachable Database.memoryBackend onlookers := reachable_play ..

theorem reachable_noted (bound : Nat) (name : String) :
    Reachable Database.memoryBackend (noted bound name) :=
  reachable_onlookers.later (later_play ..)

theorem undisturbed_noted : Undisturbed (Call.Spells "notes") (noted 40 "notes").1 := by
  have calls : (noted 40 "notes").1.history.filterMap Happening.sent? = [notesSelection,
      noteInsertion "notes", notesSelection, ⟨.execute, .createTable "notes"
        [("title", .plain .text), ("added", .plain .integer)], []⟩] := by decide +kernel
  have selects : notesSelection.Spells "notes" := ⟨by simp [notesSelection], .inl rfl⟩
  have inserts : (noteInsertion "notes").Spells "notes" := ⟨by simp [noteInsertion], .inr (.inl rfl)⟩
  refine ⟨fun call sent => ?_, fun replies => not_asked ?_, not_asked (by decide +kernel)⟩
  · rw [← mem_sent, calls] at sent
    simp only [List.mem_cons, List.not_mem_nil, or_false] at sent
    rcases sent with rfl | rfl | rfl | rfl
    · exact selects
    · exact inserts
    · exact selects
    · exact ⟨by simp, .inr (.inl rfl)⟩
  · show "reply" ∉ wordsOf (noted 40 "notes").1.history
    decide +kernel

theorem notes_followed : Reachable Database.memoryBackend (noted 4 "notes") ∧
    (∃ next event observers later,
      (noted 4 "notes").2 = [.resume (noteInsertion "notes") (.changed 1 1) next] ∧ event.table = "notes" ∧
      since (noted 4 "notes").1 ((noted 4 "notes").1.run Database.memoryBackend (noted 4 "notes").2) =
        .returned (noteInsertion "notes") (.changed 1 1) :: .published event observers :: later ∧
      .query 0 ∈ observers ∧ .watch 0 ∈ observers) ∧
    ∃ q, (noted 40 "notes").1.queries[0]? = some q ∧ q.active = true ∧
      Database.memoryBackend.Separates q.spec (fun db => db.content.find? q.spec.table) ∧
      Undisturbed (Call.Spells q.spec.table) (noted 40 "notes").1 ∧
      q.outcome = Database.memoryBackend.selected (noted 40 "notes").1.storage q.spec := by
  refine ⟨reachable_noted 4 "notes", ?_, ?_⟩
  · have back : comesBack? (noted 4 "notes").2 = some (noteInsertion "notes", .changed 1 1) := by
      decide +kernel
    obtain ⟨next, tasks⟩ : ∃ next,
        (noted 4 "notes").2 = [.resume (noteInsertion "notes") (.changed 1 1) next] := by
      unfold comesBack? at back
      split at back
      · rename_i next alone
        cases back
        exact ⟨next, alone⟩
      · cases back
    have once : .asked .reopen ∉ (noted 4 "notes").1.history := not_asked (by decide +kernel)
    obtain ⟨event, observers, later, about, happened, react⟩ :=
      (exact_name_followed (reachable_noted 4 "notes") once).1 _ _ _ _ _
        tasks (writes_noteInsertion "notes" (by decide)) (by simp)
    have stakes (observer : Observer) (there : ((noted 4 "notes").1.scene.stake? observer).map
        (fun stake => (stake.table, stake.active)) = some ("notes", true)) : observer ∈ observers := by
      obtain ⟨stake, known, same⟩ := Option.map_eq_some_iff.mp there
      obtain ⟨place, active⟩ := Prod.mk.inj same
      exact ((react observer stake known).1).mpr ⟨place, active⟩
    rw [tasks]
    exact ⟨next, event, observers, later, rfl, about, happened, stakes _ (by decide +kernel),
      stakes _ (by decide +kernel)⟩
  · have known : (noted 40 "notes").1.queries[0]?.map (fun q => (q.active, q.spec)) =
        some (true, ⟨"notes", [], ⟨[]⟩, ⟨[]⟩⟩) := by decide +kernel
    obtain ⟨q, query, same⟩ := Option.map_eq_some_iff.mp known
    obtain ⟨active, spec⟩ := Prod.mk.inj same
    have separates : Database.memoryBackend.Separates q.spec (fun db => db.content.find? q.spec.table) :=
      separates_memory (by rw [spec]; decide +kernel)
    have undisturbed : Undisturbed (Call.Spells q.spec.table) (noted 40 "notes").1 := by
      rw [spec]
      exact undisturbed_noted
    have finished : (noted 40 "notes").2 = [] := rfl
    exact ⟨q, query, active, separates, undisturbed, (exact_name_followed (reachable_noted 40 "notes")
      undisturbed_noted.once).2 finished 0 q query active _ _ separates undisturbed⟩

/-- A note that is inserted under another spelling of its table is there, but neither the query nor the watch
of the table reacts, and the query still has no rows. -/
theorem other_spelling_unheard :
    isIdentifier "NOTES" = true ∧ isIdentifier "notes" = true ∧ Text.sameName "NOTES" "notes" = true ∧
    Reachable Database.memoryBackend (noted 40 "NOTES") ∧ (noted 40 "NOTES").2 = [] ∧
    (noteInsertion "NOTES").Writes "NOTES" ∧
    comesBack? (noted 4 "NOTES").2 = some (noteInsertion "NOTES", .changed 1 1) ∧
    ([.query 0, .watch 0].map fun observer => (onlookers.1.scene.stake? observer).map
      fun stake => (stake.table, stake.active)) = [some ("notes", true), some ("notes", true)] ∧
    (since onlookers.1 (noted 40 "NOTES").1).filterMap Happening.reaction? = [] ∧
    (noted 40 "NOTES").1.queries[0]?.map (fun q => (q.active, q.rows)) = some (true, []) ∧
    ∃ row, ((noted 40 "NOTES").1.storage.answer notesSelection).1.toRows = .ok [row] := by
  refine ⟨by decide, by decide, by decide, reachable_noted 40 "NOTES", rfl,
    writes_noteInsertion "NOTES" (by decide), by decide +kernel, by decide +kernel, by decide +kernel, ?_, ?_⟩
  · obtain ⟨order, cells, row, fetched⟩ : ∃ order cells row, (noted 40 "NOTES").1.queries[0]?.map
        (fun q => (q.active, q.rows)) =
          some (true, ((([] : List Database.Record).mergeSort order).map cells).map row) := ⟨_, _, _, rfl⟩
    rwa [List.mergeSort_nil, List.map_nil] at fetched
  · obtain ⟨record, order, cells, row, selected⟩ : ∃ record order cells row,
        ((noted 40 "NOTES").1.storage.answer notesSelection).1.toRows =
          .ok (((([record] : List Database.Record).mergeSort order).map cells).map row) :=
      ⟨_, _, _, _, rfl⟩
    rw [List.mergeSort_singleton] at selected
    exact ⟨row (cells record), selected⟩

end Session

end LiveTable
