import LiveTable.Proofs.Serving

/-!
# What the storage of a run answers

A run changes its storage in two ways only: the storage answers a call, or it is opened again. The calls
that it answers were sent, and each of them is the call of a request or a statement that was given by its
text. So whatever such calls keep in a database, a run keeps.
-/

namespace LiveTable

variable {σ : Type}

/-- Where calls come from. -/
inductive Call.Made : Call → Prop
  | createTable {table : String} {spec : ColumnSpec} {call : Call}
    (made : Request.createTable table spec = .ok call) : Made call
  | addColumn {table column : String} {definition : ColumnDef} {call : Call}
    (made : Request.addColumn table column definition = .ok call) : Made call
  | createIndex {table column : String} {call : Call}
    (made : Request.createIndex table column = .ok call) : Made call
  | dropTable {table : String} {call : Call} (made : Request.dropTable table = .ok call) : Made call
  | tableList : Made Request.tableList
  | tableInfo {table : String} {call : Call} (made : Request.tableInfo table = .ok call) : Made call
  | insert {now : Int64} {table : String} {row : Row} {call : Call}
    (made : Request.insert now table row = .ok call) : Made call
  | update {table : String} {filter : Filter} {row : Row} {call : Call}
    (made : Request.update table filter row = .ok call) : Made call
  | delete {table : String} {filter : Filter} {call : Call}
    (made : Request.delete table filter = .ok call) : Made call
  | select {spec : QuerySpec} {call : Call} (made : Request.select spec = .ok call) : Made call
  | raw (kind : CallKind) (text : String) (params : List Value) : Made ⟨kind, .verbatim text, params⟩

/-- The call that a task waits for was made. -/
def Task.Waits (task : Task) : Prop :=
  ∀ call next, task.continuation? = some (call, next) → call.Made

/-- The call that was sent. -/
def Happening.sent? : Happening → Option Call
  | .sent call => some call
  | _ => none

theorem mem_sent {call : Call} {history : List Happening} :
    call ∈ history.filterMap Happening.sent? ↔ .sent call ∈ history := by
  rw [List.mem_filterMap]
  constructor
  · rintro ⟨h, member, sent⟩
    cases h <;> cases sent
    exact member
  · exact fun member => ⟨_, member, rfl⟩

/-- One change of a storage that answers some calls only. -/
inductive Backend.Turn (backend : Backend σ) (calls : Call → Prop) : σ → σ → Prop
  | answer {storage : σ} {call : Call} (sent : calls call) :
    Turn backend calls storage (backend.answer call storage).2
  | reopen {old new : σ} (opens : backend.reopen old = .ok new) : Turn backend calls old new

namespace Session

variable {backend : Backend σ} {s s' : Session σ} {p p' : Progress σ} {calls : Call → Prop}

/-! ## Where calls come from -/

theorem waits_idle {task : Task} (idle : task.continuation? = none) : task.Waits := by
  intro call next waits
  rw [idle] at waits
  cases waits

theorem waits_all_idle {tasks : List Task} (idle : ∀ task ∈ tasks, task.continuation? = none) :
    ∀ task ∈ tasks, task.Waits := fun task member => waits_idle (idle task member)

theorem waits_send {call : Call} (made : call.Made) (next : Continuation) : (Task.send call next).Waits := by
  intro other next' waits
  cases waits
  exact made

theorem waits_request (s : Session σ) (context : Context) {request : Except Error Call}
    (made : ∀ call, request = .ok call → call.Made) (next : Continuation) :
    ∀ task ∈ (s.request context request next).2, task.Waits := by
  cases request with
  | error e => exact waits_all_idle (by simp [Session.request, refuse])
  | ok call => simpa [Session.request] using waits_send (made call rfl) next

theorem waits_withArgument {α : Type} (s : Session σ) (context : Context) {argument : Except Failure α}
    {next : α → Progress σ} (waits : ∀ a, ∀ task ∈ (next a).2, task.Waits) :
    ∀ task ∈ (s.withArgument context argument next).2, task.Waits := by
  cases argument with
  | error f => exact waits_all_idle (by simp [withArgument, refuse])
  | ok a => exact waits a

theorem waits_withHandle {α : Type} (s : Session σ) (context : Context) {handle : Option α}
    {next : α → Progress σ} (waits : ∀ a, ∀ task ∈ (next a).2, task.Waits) :
    ∀ task ∈ (s.withHandle context handle next).2, task.Waits := by
  cases handle with
  | none => exact waits_all_idle (by simp [withHandle, refuse])
  | some a => exact waits a

theorem waits_addColumns (s : Session σ) (table : String) (context : Context)
    (columns : List (String × ColumnDef)) : ∀ task ∈ (s.addColumns table context columns).2, task.Waits := by
  cases columns with
  | nil => exact waits_all_idle (by simp [addColumns])
  | cons column rest => exact waits_request s context (fun _ made => .addColumn made) _

variable (backend) in
/-- The calls of a command were made. -/
theorem waits_perform (context : Context) (s : Session σ) (command : Command) :
    ∀ task ∈ (s.perform backend context command).2, task.Waits := by
  cases command with
  | createTable table pairs =>
    exact waits_withArgument s context fun spec =>
      waits_request s context (fun _ made => .createTable made) _
  | addColumns table pairs =>
    refine waits_withArgument s context fun spec => ?_
    cases checkName table with
    | error e => exact waits_all_idle (by simp [refuse])
    | ok _ => exact waits_addColumns s table context _
  | createIndex table column => exact waits_request s context (fun _ made => .createIndex made) _
  | dropTable table =>
    simp only [perform]
    cases made : Request.dropTable table with
    | error e => exact waits_all_idle (by simp [refuse])
    | ok call =>
      intro task member
      simp only [publish, List.mem_cons, List.not_mem_nil, or_false] at member
      rcases member with rfl | rfl
      · exact waits_idle rfl
      · exact waits_send (.dropTable made) _
  | tables =>
    intro task member
    rw [List.mem_singleton.mp member]
    exact waits_send .tableList _
  | schema table => exact waits_request s context (fun _ made => .tableInfo made) _
  | validateSchema table columns =>
    simp only [perform]
    split
    · exact waits_all_idle (by simp [refuse])
    · exact waits_request s context (fun _ made => .tableInfo made) _
  | insert table row =>
    exact waits_withArgument s context fun row => waits_request s context (fun _ made => .insert made) _
  | update table filter row =>
    exact waits_withArgument s context fun filter => waits_withArgument s context fun row =>
      waits_request s context (fun _ made => .update made) _
  | delete table filter =>
    exact waits_withArgument s context fun filter =>
      waits_request s context (fun _ made => .delete made) _
  | select table columns filter order =>
    exact waits_withArgument s context fun spec => waits_request s context (fun _ made => .select made) _
  | raw kind text params =>
    intro task member
    rw [List.mem_singleton.mp member]
    exact waits_send (.raw kind text _) _
  | reopen =>
    simp only [perform]
    split <;> exact waits_all_idle (by simp [ended, refuse])
  | unsubscribe label =>
    exact waits_withHandle s context fun subscription => waits_all_idle (by simp [ended])
  | publish table kind row =>
    exact waits_withArgument s context fun row => waits_all_idle (by simp [Session.publish])
  | openQuery table columns filter order label plan =>
    exact waits_withArgument s context fun spec => waits_all_idle (by simp)
  | openWatch table label plan => exact waits_all_idle (by simp [perform])
  | refresh label | disposeQuery label | dropQuery label | queryState label | watchState label
  | disposeWatch label | dropWatch label =>
    exact waits_withHandle s context fun key => waits_all_idle (by simp [ended])
  | _ => exact waits_all_idle (by simp [perform, ended, refuse])

theorem waits_notify (event : ChangeEvent) (s : Session σ) (observer : Observer) :
    ∀ task ∈ (s.notify event observer).2, task.Waits := by
  refine waits_all_idle ?_
  cases observer with
  | listener key => simp [notify]
  | query key => simp [notify]
  | watch key =>
    simp only [notify]
    repeat' split
    all_goals simp

theorem waits_fetch (s : Session σ) (key : Nat) : ∀ task ∈ (s.fetch key).2, task.Waits := by
  cases fetched s key with
  | idle inactive done =>
    rw [done]
    exact waits_all_idle (by simp)
  | refused query active invalid done =>
    rw [done]
    exact waits_all_idle (continuation?_deliver _ key _ _)
  | started query active valid done =>
    rw [done]
    simpa using waits_send (.select valid) _

variable (backend) in
/-- Advancing a task leaves tasks that wait for calls that were made. -/
theorem waits_advance (s : Session σ) {task : Task} (waits : task.Waits) :
    ∀ later ∈ (s.advance backend task).2, later.Waits := by
  -- Behind a call that is on its way there stands at most a script, which waits for none.
  have passes {script : List Command} {call : Call} {next : Continuation} {later : Task}
      (waits : call.Made) (same : later.continuation? = some (call, next)) :
      ∀ other ∈ [Task.script script, later], other.Waits := by
    intro other member
    rcases List.mem_cons.mp member with rfl | member
    · exact waits_idle rfl
    · rw [List.mem_singleton.mp member]
      intro call' next' waits'
      cases same.symm.trans waits'
      exact waits
  cases task with
  | script commands =>
    cases commands with
    | nil => exact waits_all_idle (by simp [advance])
    | cons command rest =>
      exact List.forall_mem_append.mpr ⟨waits_perform backend _ _ command, waits_all_idle (by simp)⟩
  | round event observers =>
    cases observers with
    | nil => exact waits_all_idle (by simp [advance])
    | cons observer rest =>
      exact List.forall_mem_append.mpr ⟨waits_notify event s observer, waits_all_idle (by simp)⟩
  | fetch key => exact waits_fetch s key
  | send call next => exact passes (waits call next rfl) rfl
  | answer call next => exact passes (waits call next rfl) rfl
  | resume call answer next =>
    cases next with
    | conclude reading context => exact waits_all_idle (by simp [advance, resume, ended])
    | publish event reading context =>
      simp only [advance, resume]
      split <;> exact waits_all_idle (by simp [refuse, Session.publish])
    | addColumns table columns context =>
      simp only [advance, resume]
      split
      · exact waits_all_idle (by simp [refuse])
      · exact waits_addColumns _ table context columns
    | deliver key ticket => exact waits_all_idle (continuation?_deliver _ key ticket _)
  | keepQuery label key context => exact waits_all_idle (by simp [advance])
  | keepWatch label key context => exact waits_all_idle (by simp [advance])
  | conclude context outcome => exact waits_all_idle (by simp [advance])

/-- The calls that a configuration waits for were made. -/
theorem Reachable.waits (reachable : Reachable backend p) : ∀ task ∈ p.2, task.Waits := by
  induction reachable with
  | start storage scripted now => exact waits_all_idle (by simp)
  | step _ step ih =>
    cases step with
    | advance s task rest =>
      rw [List.forall_mem_cons] at ih
      exact List.forall_mem_append.mpr ⟨waits_advance backend s ih.1, ih.2⟩
    | tick s tasks now => exact ih
    | give s command => exact waits_perform backend .top _ command

/-! ## How the storage changes -/

theorem storage_dropAll (s : Session σ) : s.dropAll.storage = s.storage := by
  have queries := moves_foldl .disposeQuery s.queryHandles.values s
  have watches := moves_foldl .disposeWatch (s.queryHandles.values.foldl disposeQuery s).watchHandles.values
    (s.queryHandles.values.foldl disposeQuery s)
  exact watches.storage.trans queries.storage

variable (backend) in
/-- Beginning a command leaves the storage as it is, or opens it again. -/
theorem storage_ask (context : Context) (s : Session σ) (command : Command) :
    (s.ask backend context command).1.storage = s.storage ∨
      backend.reopen s.storage = .ok (s.ask backend context command).1.storage := by
  by_cases same : command = .reopen
  · subst same
    have kept : (s.record (.asked .reopen)).dropAll.storage = s.storage :=
      storage_dropAll (s.record (.asked .reopen))
    simp only [ask, perform]
    cases opens : backend.reopen (s.record (.asked .reopen)).dropAll.storage with
    | error e => exact .inl kept
    | ok storage => exact .inr (kept ▸ opens)
  · exact .inl (performed_perform backend context (s.record (.asked command)) same
      (List.mem_cons_self ..)).moves.storage

variable (backend) in
/-- Answering a call leaves the storage as it is, or the storage itself answers. -/
theorem storage_answer (s : Session σ) (call : Call) :
    (s.answer backend call).2.storage = s.storage ∨
      (s.answer backend call).2.storage = (backend.answer call s.storage).2 := by
  unfold answer
  simp only
  split
  · exact .inl rfl
  · exact .inr rfl

variable (backend) in
theorem storage_advance (s : Session σ) (task : Task)
    (sent : ∀ call next, task = .answer call next → calls call) :
    (s.advance backend task).1.storage = s.storage ∨
      backend.Turn calls s.storage (s.advance backend task).1.storage := by
  cases task with
  | script commands =>
    cases commands with
    | nil => exact .inl rfl
    | cons command rest =>
      exact (storage_ask backend (.nested command.word) s command).imp_right .reopen
  | round event observers => exact .inl (performed_round backend s event observers).moves.storage
  | fetch key => exact .inl (backed_fetch s key).storage
  | send call next => exact .inl (alike_takeHook _ _ _).storage
  | answer call next =>
    have hooked : (s.advance backend (.answer call next)).1.storage = (s.answer backend call).2.storage :=
      (alike_takeHook _ _ _).storage
    rw [hooked]
    refine (storage_answer backend s call).imp_right fun own => ?_
    rw [own]
    exact .answer (sent call next rfl)
  | resume call answer next =>
    cases next with
    | deliver key ticket => exact .inl (backed_deliver _ key ticket _).storage
    | _ => exact .inl (performed_returned backend s call answer fun _ => rfl).moves.storage
  | keepQuery label key context => exact .inl (performed_keepQuery s label key context).moves.storage
  | keepWatch label key context => exact .inl (performed_keepWatch s label key context).moves.storage
  | conclude context outcome => exact .inl (performed_conclude backend s context outcome).moves.storage

/-- The storage of a run answers calls that were made and sent, and is opened again; nothing else changes
it. -/
theorem Later.turns (reachable : Reachable backend p) (later : Later backend p p') :
    Relation.ReflTransGen (backend.Turn fun call => call.Made ∧ .sent call ∈ p'.1.history)
      p.1.storage p'.1.storage := by
  induction later with
  | refl => exact .refl
  | @tail between last later step ih =>
    have before := reachable.later later
    -- What was sent before the last step was sent by the end of it, too.
    have grow (old new : σ)
        (turn : backend.Turn (fun call => call.Made ∧ .sent call ∈ between.1.history) old new) :
        backend.Turn (fun call => call.Made ∧ .sent call ∈ last.1.history) old new := by
      cases turn with
      | answer sent => exact .answer ⟨sent.1, step.history.subset sent.2⟩
      | reopen opens => exact .reopen opens
    have turns := Relation.ReflTransGen.mono grow _ _ ih
    suffices last.1.storage = between.1.storage ∨
        backend.Turn (fun call => call.Made ∧ .sent call ∈ last.1.history) between.1.storage
          last.1.storage from this.elim (fun same => same ▸ turns) turns.tail
    cases step with
    | advance s task rest =>
      refine storage_advance backend s task ?_
      rintro call next rfl
      have made := before.waits _ (List.mem_cons_self ..) call next rfl
      obtain ⟨-, sends | sent⟩ := before.fitting _ (List.mem_cons_self ..) call next rfl
      · cases sends
      · exact ⟨made, (Step.advance s _ rest).history.subset sent⟩
    | tick s tasks now => exact .inl rfl
    | give s command => exact (storage_ask backend .top s command).imp_right .reopen

/-- What the calls of a run keep, and opening again keeps, the run keeps. -/
theorem Later.maintains (kept : σ → Prop) (reachable : Reachable backend p) (later : Later backend p p')
    (reopens : ∀ old new, backend.reopen old = .ok new → kept old → kept new)
    (keeps : ∀ storage call, call.Made → .sent call ∈ p'.1.history → kept storage →
      kept (backend.answer call storage).2)
    (first : kept p.1.storage) : kept p'.1.storage := by
  have turns := later.turns reachable
  generalize p'.1.storage = storage at turns
  induction turns with
  | refl => exact first
  | tail _ turn ih =>
    cases turn with
    | answer sent => exact keeps _ _ sent.1 sent.2 ih
    | reopen opens => exact reopens _ _ opens ih

end Session

end LiveTable
