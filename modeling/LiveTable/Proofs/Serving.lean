import LiveTable.Proofs.Moves

/-!
# What the storage serves

What a selection on a table gives depends on the state of that table alone, and only a call that
changes the table, and succeeds, changes its state. So the moves of a session leave alone what the
storage serves. It can change when a call is answered, and whoever sent that call is to publish the
change.
-/

namespace LiveTable

variable {σ ν : Type}

/-- The table that a call changes if it succeeds. -/
def Call.changed? (call : Call) : Option String := call.event?.map (·.table)

/-- The command to select with a spec. -/
def QuerySpec.command (spec : QuerySpec) : Command :=
  .select spec.table spec.columns (.value spec.filter) (.value spec.order)

/-- What a selection gives in a state of the storage. -/
def Backend.selected (backend : Backend σ) (storage : σ) (spec : QuerySpec) :
    Except Error (List Row) := do
  let call ← Request.select spec
  (backend.answer call storage).1.toRows

/-- A storage serves a table whose state is a part of its own, as far as some calls are concerned. -/
structure Backend.Serves (backend : Backend σ) (table : String) (view : σ → ν)
    (calls : Call → Prop) : Prop where
  /-- The answer to a selection depends on the state of the table. -/
  selects : ∀ spec call, spec.table = table → Request.select spec = .ok call →
    ∀ a b, view a = view b → (backend.answer call a).1 = (backend.answer call b).1
  /-- A call that fails leaves the table as it is. -/
  fails : ∀ call, calls call → ∀ storage message,
    (backend.answer call storage).1 = .failed message →
      view (backend.answer call storage).2 = view storage
  /-- So does a call that does not change the table. -/
  spares : ∀ call, calls call → call.changed? ≠ some table → ∀ storage,
    view (backend.answer call storage).2 = view storage

namespace Session

variable {backend : Backend σ} {s s' : Session σ} {p p' : Progress σ} {calls : Call → Prop}

/-- What a selection gives now. -/
def selected (backend : Backend σ) (s : Session σ) (spec : QuerySpec) : Except Error (List Row) := do
  let call ← Request.select spec
  (s.answer backend call).1.toRows

/-- In the past of a session the storage answered some calls only, always by itself, and was never
opened again. Prepared replies would answer in its place: they are a storage of their own, and what
they answer, a storage with a state can answer too. -/
structure Undisturbed (calls : Call → Prop) (s : Session σ) : Prop where
  sent : ∀ call, .sent call ∈ s.history → calls call
  unprepared : ∀ replies, .asked (.reply replies) ∉ s.history
  once : .asked .reopen ∉ s.history

theorem Undisturbed.earlier (undisturbed : Undisturbed calls s') (past : s.history <:+ s'.history) :
    Undisturbed calls s where
  sent call sent := undisturbed.sent call (past.subset sent)
  unprepared replies asked := undisturbed.unprepared replies (past.subset asked)
  once asked := undisturbed.once (past.subset asked)

/-! ## What the command to select gives -/

theorem hooks_answer (call : Call) (s : Session σ) : (s.answer backend call).2.hooks = s.hooks := by
  obtain ⟨storage, replies, same⟩ := answered backend call s
  rw [same]

/-- Without hooks, nothing runs inside a call. -/
theorem takeHook_none {s : Session σ} (none : s.hooks = []) (kind : CallKind) (moment : Moment) :
    s.takeHook kind moment = ([], s) := by
  have kept : { s with hooks := [] } = s := by rw [← none]
  unfold takeHook
  rw [none, Hook.take, kept, ite_self]

theorem answer_record (s : Session σ) (h : Happening) (call : Call) :
    ((s.record h).answer backend call).1 = (s.answer backend call).1 := by
  unfold answer
  simp only [record]
  split <;> rfl

/-- The outcome of a command that sends one call, if nothing runs inside of the call. -/
theorem outcome_run_send {s : Session σ} (none : s.hooks = []) (call : Call) (reading : Reading) :
    (s.run backend [.send call (.conclude reading .top)]).outcome =
      .ofExcept id (reading.outcome (s.answer backend call).1) := by
  have sent : (s.record (.sent call)).hooks = [] := none
  have answered : ((s.record (.sent call)).answer backend call).2.hooks = [] :=
    (hooks_answer call _).trans none
  simp only [run, advance, takeHook_none sent, takeHook_none answered, List.cons_append,
    List.nil_append, resume, ended, if_true, answer_record]

/-- If nothing runs inside of it, the command to select gives what a selection gives now. -/
theorem outcome_select {s : Session σ} (none : s.hooks = []) (spec : QuerySpec) :
    (s.give backend spec.command).outcome = .ofExcept .rows (s.selected backend spec) := by
  obtain ⟨s', shape⟩ : ∃ s', s' = s.record (.asked spec.command) := ⟨_, rfl⟩
  have performs : s'.perform backend .top spec.command =
      s'.request .top (Request.select spec) (.conclude .rows .top) := rfl
  simp only [give, ask, ← shape, performs, selected]
  cases Request.select spec with
  | error e =>
    simp only [request, refuse, run, advance, List.append_nil, if_true]
    rfl
  | ok call =>
    have hookless : s'.hooks = [] := shape ▸ none
    have same : (s'.answer backend call).1 = (s.answer backend call).1 := shape ▸ answer_record ..
    simp only [request]
    rw [outcome_run_send hookless, same, Reading.outcome]
    show _ = Outcome.ofExcept .rows (s.answer backend call).1.toRows
    cases (s.answer backend call).1.toRows <;> rfl

/-! ## Who leaves the storage alone -/

theorem storage_disposeQuery (s : Session σ) (key : Nat) : (s.disposeQuery key).storage = s.storage := by
  cases queryDisposed s key with
  | idle inactive done => rw [done]
  | ended query active done => rw [done]; rfl

theorem storage_disposeWatch (s : Session σ) (key : Nat) : (s.disposeWatch key).storage = s.storage := by
  cases watchDisposed s key with
  | idle inactive done => rw [done]
  | ended watch active done => rw [done]; rfl

theorem Move.storage (move : Move s s') : s'.storage = s.storage := by
  cases move with
  | aside alike => exact alike.storage
  | disposeQuery key => exact storage_disposeQuery s key
  | disposeWatch key => exact storage_disposeWatch s key
  | _ => rfl

theorem Moves.storage (moves : Moves s s') : s'.storage = s.storage := by
  induction moves with
  | refl => rfl
  | tail _ move ih => exact move.storage.trans ih

/-- Two sessions with the same storage, and with the same replies in front of it. -/
structure Backed (s s' : Session σ) : Prop where
  storage : s'.storage = s.storage
  replies : s'.replies = s.replies

theorem backed_deliver (s : Session σ) (key ticket : Nat) (result : Except Error (List Row)) :
    Backed s (s.deliver key ticket result).1 := by
  cases delivered s key ticket result with
  | lost none done => rw [done]; exact ⟨rfl, rfl⟩
  | accepted query active new calls done => rw [done]; exact ⟨calls.storage, calls.replies⟩
  | discarded query late done => rw [done]; exact ⟨rfl, rfl⟩

theorem backed_fetch (s : Session σ) (key : Nat) : Backed s (s.fetch key).1 := by
  cases fetched s key with
  | idle inactive done => rw [done]; exact ⟨rfl, rfl⟩
  | @refused q query active e invalid done =>
    have failed := backed_deliver (s.startFetch key (q.started + 1)) key (q.started + 1) (.error e)
    rw [done]
    exact ⟨failed.storage, failed.replies⟩
  | started query active valid done => rw [done]; exact ⟨rfl, rfl⟩

/-! ## The storage answers by itself -/

variable (backend) in
/-- Without replies in front of it, the storage itself answers. -/
theorem answer_plain (plain : s.replies = []) (call : Call) :
    (s.answer backend call).1 = (backend.answer call s.storage).1 ∧
      (s.answer backend call).2.storage = (backend.answer call s.storage).2 ∧
      (s.answer backend call).2.replies = [] := by
  unfold answer
  rw [plain]
  cases s.scripted <;> exact ⟨rfl, rfl, rfl⟩

theorem selected_plain (plain : s.replies = []) (spec : QuerySpec) :
    s.selected backend spec = backend.selected s.storage spec := by
  simp only [selected, Backend.selected, (answer_plain backend plain _).1]

theorem Performed.unprepared (performed : Performed s p) (plain : s.replies = [])
    (undisturbed : Undisturbed calls p.1) : p.1.replies = [] := by
  rcases performed.replies with same | ⟨replies, asked⟩
  · exact same.trans plain
  · exact absurd asked (undisturbed.unprepared replies)

theorem Advanced.unprepared {task : Task} (advanced : Advanced backend s task p)
    (plain : s.replies = []) (undisturbed : Undisturbed calls p.1) : p.1.replies = [] := by
  cases advanced with
  | performed quiet performed => exact performed.unprepared plain undisturbed
  | reopened quiet reopened idle => exact absurd reopened.asked undisturbed.once
  | fetch key => exact (backed_fetch s key).replies.trans plain
  | send call next => exact (alike_takeHook (s.record (.sent call)) _ _).replies.trans plain
  | answer call next => exact (alike_takeHook _ _ _).replies.trans (answer_plain backend plain call).2.2
  | deliver call answer key ticket =>
    exact (backed_deliver (s.record (.returned call answer)) key ticket _).replies.trans plain

/-- If nobody prepared replies, there are none. -/
theorem Reachable.plain (reachable : Reachable backend p) (undisturbed : Undisturbed calls p.1) :
    p.1.replies = [] := by
  induction reachable with
  | start storage scripted now => rfl
  | step _ step ih =>
    have plain := ih (undisturbed.earlier step.history)
    cases step with
    | advance s task rest => exact (advanced backend s task).unprepared plain undisturbed
    | tick s tasks now => exact plain
    | give s command =>
      rcases asked_cases backend .top s command with performed | ⟨reopened, -⟩
      · exact performed.unprepared plain undisturbed
      · exact absurd reopened.asked undisturbed.once

end Session

/-! ## What changes a selection -/

/-- A selection follows a part of the storage: what it gives depends on this part, which a call changes only
if it succeeds and changes the table of the selection. -/
structure Backend.Follows (backend : Backend σ) (spec : QuerySpec) (view : σ → ν) (calls : Call → Prop) :
    Prop where
  selects : ∀ call, Request.select spec = .ok call → ∀ a b, view a = view b →
    (backend.answer call a).1 = (backend.answer call b).1
  fails : ∀ call, calls call → ∀ storage message, (backend.answer call storage).1 = .failed message →
    view (backend.answer call storage).2 = view storage
  spares : ∀ call, calls call → call.changed? ≠ some spec.table → ∀ storage,
    view (backend.answer call storage).2 = view storage

section Follows

variable {backend : Backend σ} {spec : QuerySpec} {view : σ → ν} {calls : Call → Prop}

/-- Every selection on a table that a storage serves follows its state. -/
theorem Backend.Serves.follows (serves : backend.Serves spec.table view calls) :
    backend.Follows spec view calls where
  selects call := serves.selects spec call rfl
  fails := serves.fails
  spares := serves.spares

namespace Backend.Follows

theorem selected_eq (follows : backend.Follows spec view calls) {a b : σ} (same : view a = view b) :
    backend.selected a spec = backend.selected b spec := by
  unfold Backend.selected
  cases valid : Request.select spec with
  | error e => rfl
  | ok call =>
    show (backend.answer call a).1.toRows = (backend.answer call b).1.toRows
    rw [follows.selects call valid a b same]

/-- A call that changes what is followed succeeds, and it is one whose event is about the table. -/
theorem changed (follows : backend.Follows spec view calls) {call : Call} (sent : calls call)
    {storage : σ} (different : view (backend.answer call storage).2 ≠ view storage) :
    (∃ event, call.event? = some event ∧ event.table = spec.table) ∧
      ∀ message, (backend.answer call storage).1 ≠ .failed message := by
  constructor
  · refine Classical.byContradiction fun other => different (follows.spares call sent ?_ storage)
    rw [Call.changed?, ne_eq, Option.map_eq_some_iff]
    exact other
  · intro message failed
    exact different (follows.fails call sent storage message failed)

end Backend.Follows

end Follows

end LiveTable
