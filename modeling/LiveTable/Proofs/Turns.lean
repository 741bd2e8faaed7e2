import LiveTable.Proofs.Effects
import LiveTable.Proofs.Runs
import LiveTable.Proofs.Scene

/-!
# Turns

What a step of a run does to those who observe the session. It leaves the scene as it is, opens or
disposes queries and watches, or does what the commands say that register subscribers, take their
registrations back or reopen the store. Beside that a step may publish one event, whose observers are
called next, or call one observer; and what is told of commands, events and calls goes into the history.
-/

namespace LiveTable

/-- A command was begun, an event was published, or a subscriber was called. -/
def Happening.isNews : Happening → Bool
  | .asked _ => true
  | .published .. => true
  | .observed .. => true
  | _ => false

/-- The command registers a subscriber, takes a registration back, or drops all of them. -/
def Command.enlists : Command → Bool
  | .subscribe .. => true
  | .unsubscribe _ => true
  | .reopen => true
  | _ => false

/-- The task calls the observers of an event. -/
@[simp] def Task.isRound : Task → Bool
  | .round .. => true
  | _ => false

/-- The task begins no command and calls no observer. -/
def Task.plain : Task → Bool
  | .script (_ :: _) => false
  | .round _ (_ :: _) => false
  | _ => true

namespace Session

variable {σ : Type} {backend : Backend σ} {s s' : Session σ} {p p' : Progress σ}

/-- Those who observe a session. -/
def scene (s : Session σ) : Scene :=
  ⟨s.bus, s.listeners.length, s.queries.map Query.stake, s.watches.map Watch.stake, s.subscriptions⟩

/-- The commands, events and calls of subscribers in the history, the latest first. -/
def news (s : Session σ) : List Happening := s.history.filter Happening.isNews

/-- Two sessions with the same observers, who were told nothing in between. -/
structure Still (s s' : Session σ) : Prop where
  scene : s'.scene = s.scene
  news : s'.news = s.news

/-- What one turn of a session does to its observers. -/
inductive Turn (s : Session σ) (p : Progress σ) : Prop
  | still (still : Still s p.1) (idle : ∀ task ∈ p.2, task.isRound = false)
  | shift (shift : Scene.Shift s.scene p.1.scene) (news : p.1.news = s.news)
    (idle : ∀ task ∈ p.2, task.isRound = false)
  | publish (event : ChangeEvent) {rest : List Task} (scene : p.1.scene = s.scene)
    (news : p.1.news = .published event (s.bus.observers event.table) :: s.news)
    (tasks : p.2 = .round event (s.bus.observers event.table) :: rest)
    (idle : ∀ task ∈ rest, task.isRound = false)

/-! ## Operations that nobody observes -/

theorem Still.refl (s : Session σ) : Still s s := ⟨rfl, rfl⟩

theorem Still.trans {s'' : Session σ} (first : Still s s') (second : Still s' s'') : Still s s'' :=
  ⟨second.scene.trans first.scene, second.news.trans first.news⟩

theorem still_record (s : Session σ) {h : Happening} (quiet : h.isNews = false) :
    Still s (s.record h) := ⟨rfl, List.filter_cons_of_neg (by simp [quiet])⟩

theorem news_record (s : Session σ) {h : Happening} (told : h.isNews = true) :
    (s.record h).news = h :: s.news := List.filter_cons_of_pos told

theorem still_listenerScript (s : Session σ) (key : Nat) : Still s (s.listenerScript key).2 := by
  unfold listenerScript
  cases s.listeners[key]? with
  | none => exact .refl s
  | some l => exact ⟨by simp [scene], rfl⟩

theorem still_queryScript (s : Session σ) (key : Nat) : Still s (s.queryScript key).2 := by
  unfold queryScript
  cases query : s.queries[key]? with
  | none => exact .refl s
  | some q =>
    refine ⟨?_, rfl⟩
    have same := map_set_same Query.stake query
      (show { q with plan := q.plan.next.2 }.stake = q.stake from rfl)
    simp only [scene, same]

theorem still_watchScript (s : Session σ) (key : Nat) : Still s (s.watchScript key).2 := by
  unfold watchScript
  cases watch : s.watches[key]? with
  | none => exact .refl s
  | some w =>
    refine ⟨?_, rfl⟩
    have same := map_set_same Watch.stake watch
      (show { w with plan := w.plan.next.2 }.stake = w.stake from rfl)
    simp only [scene, same]

theorem still_takeHook (s : Session σ) (kind : CallKind) (moment : Moment) :
    Still s (s.takeHook kind moment).2 := by
  unfold takeHook
  split
  · exact ⟨rfl, rfl⟩
  · exact .refl s

variable (backend) in
theorem still_answer (call : Call) (s : Session σ) : Still s (s.answer backend call).2 := by
  obtain ⟨storage, replies, same⟩ := answered backend call s
  rw [same]
  exact ⟨rfl, rfl⟩

theorem map_modify {α β : Type} (g : α → β) (f : α → α) (f' : β → β) (commute : ∀ a, g (f a) = f' (g a))
    (l : List α) (key : Nat) : (l.modify key f).map g = (l.map g).modify key f' := by
  refine List.ext_getElem? fun i => ?_
  by_cases here : key = i
  · subst here
    cases found : l[key]? <;> simp [found, commute]
  · simp [here]

/-- Changing what a query has not at stake is not observed. -/
theorem still_setQuery (s : Session σ) (key : Nat) {f : Query → Query}
    (same : ∀ q, (f q).stake = q.stake) : Still s (s.setQuery key f) := by
  refine ⟨?_, rfl⟩
  have kept : (s.queries.modify key f).map Query.stake = s.queries.map Query.stake := by
    rw [map_modify Query.stake f id same, List.modify_id]
  simp only [scene, setQuery, kept]

theorem still_deliver (s : Session σ) (key ticket : Nat) (result : Except Error (List Row)) :
    Still s (s.deliver key ticket result).1 ∧
      ∀ task ∈ (s.deliver key ticket result).2, task.isRound = false := by
  unfold deliver
  cases s.queries[key]? with
  | none => exact ⟨.refl s, by simp⟩
  | some q =>
    have arrived : Still s (s.record (.arrived key ticket result)) := still_record s rfl
    simp only
    split
    · have taken : Still (s.record (.arrived key ticket result))
          ((s.record (.arrived key ticket result)).takeResult key ticket q.label result) :=
        (still_setQuery _ key fun q => by cases result <;> rfl).trans
          (still_record _ (by cases result <;> rfl))
      exact ⟨(arrived.trans taken).trans (still_queryScript _ key), by simp⟩
    · exact ⟨arrived.trans (still_record _ rfl), by simp⟩

theorem still_fetch (s : Session σ) (key : Nat) :
    Still s (s.fetch key).1 ∧ ∀ task ∈ (s.fetch key).2, task.isRound = false := by
  have starts (ticket : Nat) : Still s (s.startFetch key ticket) :=
    (still_setQuery s key (f := fun q => { q with started := ticket }) fun _ => rfl).trans
      (still_record _ rfl)
  cases fetched s key with
  | idle inactive done =>
    rw [done]
    exact ⟨.refl s, by simp⟩
  | refused query active invalid done =>
    rw [done]
    obtain ⟨delivered, idle⟩ := still_deliver (s.startFetch key _) key _ (.error _)
    exact ⟨(starts _).trans delivered, idle⟩
  | started query active valid done =>
    rw [done]
    exact ⟨starts _, by simp⟩

/-! ## Commands -/

theorem Turn.rest {tasks : List Task} (still : Still s s')
    (idle : ∀ task ∈ tasks, task.isRound = false) : Turn s (s', tasks) := .still still idle

theorem Turn.before (still : Still s s') (turn : Turn s' p) : Turn s p := by
  cases turn with
  | still after idle => exact .still (still.trans after) idle
  | shift shift news idle => exact .shift (still.scene ▸ shift) (news.trans still.news) idle
  | publish event scene news tasks idle =>
    have bus : s'.bus = s.bus := congrArg Scene.bus still.scene
    exact .publish event (scene.trans still.scene) (by rw [news, bus, still.news])
      (by rw [tasks, bus]) idle

theorem turn_refuse (s : Session σ) (context : Context) (f : Failure) :
    Turn s (s.refuse context f) := .rest (.refl s) (by simp)

theorem turn_request (s : Session σ) (context : Context) (call : Except Error Call)
    (next : Continuation) : Turn s (s.request context call next) := by
  cases call with
  | error e => exact turn_refuse s context _
  | ok call => exact .rest (.refl s) (by simp)

theorem turn_addColumns (s : Session σ) (table : String) (context : Context)
    (columns : List (String × ColumnDef)) : Turn s (s.addColumns table context columns) := by
  cases columns with
  | nil => exact .rest (.refl s) (by simp)
  | cons column rest => exact turn_request s context _ _

theorem turn_withArgument {α : Type} (s : Session σ) (context : Context) (argument : Except Failure α)
    {next : α → Progress σ} (turn : ∀ a, Turn s (next a)) :
    Turn s (s.withArgument context argument next) := by
  cases argument with
  | error f => exact turn_refuse s context f
  | ok a => exact turn a

theorem turn_withHandle {α : Type} (s : Session σ) (context : Context) (handle : Option α)
    {next : α → Progress σ} (turn : ∀ a, Turn s (next a)) :
    Turn s (s.withHandle context handle next) := by
  cases handle with
  | none => exact turn_refuse s context _
  | some a => exact turn a

theorem turn_ended (still : Still s s') (context : Context) (outcome : Outcome) :
    Turn s (s'.ended context outcome) := .rest still (by simp)

/-- Publishing calls the observers that are registered now. -/
theorem turn_publish (s : Session σ) (event : ChangeEvent) {task : Task}
    (idle : task.isRound = false) : Turn s ((s.publish event).1, [(s.publish event).2, task]) :=
  .publish event rfl (news_record s rfl) rfl (by simpa using idle)

/-- Disposing a query is a shift of the scene, unless it was disposed already. -/
theorem turn_disposeQuery (s : Session σ) (key : Nat) {tasks : List Task}
    (idle : ∀ task ∈ tasks, task.isRound = false) : Turn s (s.disposeQuery key, tasks) := by
  cases queryDisposed s key with
  | idle inactive done =>
    rw [done]
    exact .rest (.refl s) idle
  | @ended q query active done =>
    have scene : (s.disposeQuery key).scene =
        { s.scene with
          bus := s.scene.bus.unsubscribe q.stake.subscription
          queries := s.scene.queries.modify key fun stake => { stake with active := false } } := by
      rw [done]
      have ends := map_modify Query.stake (fun q => { q with active := false })
        (fun stake => { stake with active := false }) (fun _ => rfl) s.queries key
      simp only [Session.scene, record, setQuery, ends, Query.stake]
    refine .shift ?_ ?_ idle
    · rw [scene]
      exact .endQuery s.scene (by simp [Session.scene, query]) active
    · rw [done]
      exact (still_record _ rfl).news

theorem turn_disposeWatch (s : Session σ) (key : Nat) {tasks : List Task}
    (idle : ∀ task ∈ tasks, task.isRound = false) : Turn s (s.disposeWatch key, tasks) := by
  cases watchDisposed s key with
  | idle inactive done =>
    rw [done]
    exact .rest (.refl s) idle
  | @ended w watch active done =>
    have scene : (s.disposeWatch key).scene =
        { s.scene with
          bus := s.scene.bus.unsubscribe w.stake.subscription
          watches := s.scene.watches.modify key fun stake => { stake with active := false } } := by
      rw [done]
      have ends := map_modify Watch.stake (fun w => { w with active := false })
        (fun stake => { stake with active := false }) (fun _ => rfl) s.watches key
      simp only [Session.scene, record, setWatch, ends, Watch.stake]
    refine .shift ?_ ?_ idle
    · rw [scene]
      exact .endWatch s.scene (by simp [Session.scene, watch]) active
    · rw [done]
      exact (still_record _ rfl).news

theorem scene_addQuery (s : Session σ) (spec : QuerySpec) (label : String) (plan : Plan) :
    Scene.Shift s.scene (s.addQuery spec label plan).2.scene := by
  have opens := Scene.Shift.openQuery s.scene spec.table
  simpa [scene, addQuery, Query.stake, Bus.subscribe] using opens

theorem scene_addWatch (s : Session σ) (table label : String) (plan : Plan) :
    Scene.Shift s.scene (s.addWatch table label plan).2.scene := by
  have opens := Scene.Shift.openWatch s.scene table
  simpa [scene, addWatch, Watch.stake, Bus.subscribe] using opens

theorem scene_addListener (s : Session σ) (table label : String) (plan : Plan) :
    (s.addListener table label plan).scene = s.scene.listen table label := by
  simp [scene, addListener, Scene.listen, Bus.subscribe]

variable (backend) in
/-- A command that enlists nobody takes one turn. -/
theorem turn_perform (context : Context) (s : Session σ) {command : Command}
    (other : command.enlists = false) : Turn s (s.perform backend context command) := by
  cases command with
  | createTable table pairs =>
    exact turn_withArgument s context _ fun spec => turn_request s context _ _
  | addColumns table pairs =>
    refine turn_withArgument s context _ fun spec => ?_
    cases checkName table with
    | error e => exact turn_refuse s context _
    | ok _ => exact turn_addColumns s table context _
  | createIndex table column => exact turn_request s context _ _
  | dropTable table =>
    simp only [perform]
    cases Request.dropTable table with
    | error e => exact turn_refuse s context _
    | ok call => exact turn_publish s _ rfl
  | tables => exact .rest (.refl s) (by simp)
  | schema table => exact turn_request s context _ _
  | validateSchema table columns =>
    simp only [perform]
    split
    · exact turn_refuse s context _
    · exact turn_request s context _ _
  | insert table row => exact turn_withArgument s context _ fun row => turn_request s context _ _
  | update table filter row =>
    exact turn_withArgument s context _ fun filter =>
      turn_withArgument s context _ fun row => turn_request s context _ _
  | delete table filter =>
    exact turn_withArgument s context _ fun filter => turn_request s context _ _
  | select table columns filter order =>
    exact turn_withArgument s context _ fun spec => turn_request s context _ _
  | raw kind text params => exact .rest (.refl s) (by simp)
  | reply replies =>
    have queues : Still s { s with replies := s.replies ++ replies } := ⟨rfl, rfl⟩
    exact turn_ended queues context _
  | hook kind moment script =>
    have queues : Still s { s with hooks := s.hooks ++ [Hook.mk kind moment script] } := ⟨rfl, rfl⟩
    exact turn_ended queues context _
  | reopen => cases other
  | subscribe table label plan => cases other
  | unsubscribe label => cases other
  | publish table kind row =>
    exact turn_withArgument s context _ fun row => turn_publish s _ rfl
  | count table => exact turn_ended (.refl s) context _
  | describeBus => exact turn_ended (.refl s) context _
  | openQuery table columns filter order label plan =>
    refine turn_withArgument s context _ fun spec => ?_
    exact .shift (scene_addQuery s spec label plan) rfl (by simp)
  | refresh label =>
    exact turn_withHandle s context _ fun key => .rest (.refl s) (by simp)
  | disposeQuery label =>
    exact turn_withHandle s context _ fun key => turn_disposeQuery s key (by simp)
  | dropQuery label =>
    refine turn_withHandle s context _ fun key => ?_
    have forgets : Still s { s with queryHandles := s.queryHandles.erase label } := ⟨rfl, rfl⟩
    exact (turn_disposeQuery _ key (by simp)).before forgets
  | queryState label => exact turn_withHandle s context _ fun q => turn_ended (.refl s) context _
  | openWatch table label plan =>
    have opened := scene_addWatch s table label plan
    have called : Still (s.addWatch table label plan).2 _ :=
      (still_record (s.addWatch table label plan).2
        (h := .notified (s.addWatch table label plan).1 label) rfl).trans
          (still_watchScript _ (s.addWatch table label plan).1)
    exact .shift (called.scene ▸ opened) called.news (by simp [perform])
  | watchState label => exact turn_withHandle s context _ fun w => turn_ended (.refl s) context _
  | disposeWatch label =>
    exact turn_withHandle s context _ fun key => turn_disposeWatch s key (by simp)
  | dropWatch label =>
    refine turn_withHandle s context _ fun key => ?_
    have forgets : Still s { s with watchHandles := s.watchHandles.erase label } := ⟨rfl, rfl⟩
    exact (turn_disposeWatch _ key (by simp)).before forgets
  | unknown word => exact turn_refuse s context _

/-! ## Steps -/

/-- What beginning a command does to those who observe the session. -/
inductive Asked (s : Session σ) (command : Command) (p : Progress σ) : Prop
  | turn (other : command.enlists = false) (turn : Turn (s.record (.asked command)) p)
  | enlists (enlists : Scene.Enlists command s.scene p.1.scene)
    (news : p.1.news = .asked command :: s.news) (idle : ∀ task ∈ p.2, task.isRound = false)

theorem shifts_foldl {dispose : Session σ → Nat → Session σ}
    (turn : ∀ s key, Turn s (dispose s key, [])) (keys : List Nat) (s : Session σ) :
    Scene.Shifts s.scene (keys.foldl dispose s).scene ∧ (keys.foldl dispose s).news = s.news := by
  induction keys generalizing s with
  | nil => exact ⟨.refl, rfl⟩
  | cons key rest ih =>
    obtain ⟨shifts, news⟩ := ih (dispose s key)
    cases turn s key with
    | still still idle => exact ⟨still.scene ▸ shifts, news.trans still.news⟩
    | shift shift same idle => exact ⟨.head shift shifts, news.trans same⟩
    | publish event scene same tasks idle => cases tasks

/-- Dropping everything disposes what has a handle, and clears the bus. -/
theorem scene_dropAll (s : Session σ) : ∃ between, Scene.Shifts s.scene between ∧
    s.dropAll.scene = between.cleared ∧ s.dropAll.news = s.news := by
  obtain ⟨first, same⟩ := shifts_foldl
    (fun s key => turn_disposeQuery s key (by simp)) s.queryHandles.values s
  obtain ⟨second, same'⟩ := shifts_foldl
    (fun s key => turn_disposeWatch s key (by simp))
    (s.queryHandles.values.foldl disposeQuery s).watchHandles.values
    (s.queryHandles.values.foldl disposeQuery s)
  exact ⟨_, first.trans second, rfl, same'.trans same⟩

variable (backend) in
theorem asked_ask (context : Context) (s : Session σ) (command : Command) :
    Asked s command (s.ask backend context command) := by
  have told : (s.record (.asked command)).news = .asked command :: s.news := news_record s rfl
  cases command with
  | subscribe table label plan =>
    refine .enlists ?_ told (by simp [ask, perform, ended])
    have listens : (s.ask backend context (.subscribe table label plan)).1.scene =
        s.scene.listen table label := scene_addListener (s.record _) table label plan
    rw [listens]
    exact .subscribe s.scene table label plan
  | unsubscribe label =>
    have unlistens : (s.ask backend context (.unsubscribe label)).1.scene = s.scene.unlisten label ∧
        (s.ask backend context (.unsubscribe label)).1.news = .asked (.unsubscribe label) :: s.news ∧
          ∀ task ∈ (s.ask backend context (.unsubscribe label)).2, task.isRound = false := by
      have kept : (s.record (.asked (.unsubscribe label))).subscriptions = s.subscriptions := rfl
      simp only [ask, perform, withHandle, kept, Scene.unlisten]
      have labelled : s.scene.subscriptions = s.subscriptions := rfl
      rw [labelled]
      cases s.subscriptions.get? label with
      | none => exact ⟨rfl, told, by simp [refuse]⟩
      | some subscription => exact ⟨rfl, told, by simp [ended]⟩
    obtain ⟨scene, news, idle⟩ := unlistens
    refine .enlists ?_ news idle
    rw [scene]
    exact .unsubscribe s.scene label
  | reopen =>
    obtain ⟨between, shifts, scene, news⟩ := scene_dropAll (s.record (.asked .reopen))
    have reopens : (s.ask backend context .reopen).1.scene = between.cleared ∧
        (s.ask backend context .reopen).1.news = .asked .reopen :: s.news ∧
          ∀ task ∈ (s.ask backend context .reopen).2, task.isRound = false := by
      simp only [ask, perform]
      cases backend.reopen (s.record (.asked .reopen)).dropAll.storage with
      | error e => exact ⟨scene, news.trans told, by simp [refuse]⟩
      | ok storage => exact ⟨scene, news.trans told, by simp [ended]⟩
    obtain ⟨scene, news, idle⟩ := reopens
    refine .enlists ?_ news idle
    rw [scene]
    exact .reopen shifts
  | _ => exact .turn rfl (turn_perform backend context _ rfl)

/-- Calling an observer is told if the observer is a subscriber. -/
theorem still_notify (event : ChangeEvent) (s : Session σ) (observer : Observer) :
    (s.notify event observer).1.scene = s.scene ∧
      (∀ task ∈ (s.notify event observer).2, task.isRound = false) ∧
        match observer with
        | .listener key => ∃ label,
          (s.notify event observer).1.news = .observed key label event :: s.news
        | _ => (s.notify event observer).1.news = s.news := by
  cases observer with
  | listener key =>
    have reads := still_listenerScript
      (s.record (.observed key ((s.listeners[key]?.map (·.label)).getD "") event)) key
    exact ⟨reads.scene, by simp [notify], _, reads.news.trans (news_record s rfl)⟩
  | query key => exact ⟨rfl, by simp [notify], rfl⟩
  | watch key =>
    simp only [notify]
    cases s.watches[key]? with
    | none => exact ⟨rfl, by simp, rfl⟩
    | some w =>
      simp only
      split
      · have reads := (still_record s (h := .notified key w.label) rfl).trans (still_watchScript _ key)
        exact ⟨reads.scene, by simp, reads.news⟩
      · exact ⟨rfl, by simp, rfl⟩

theorem turn_resume (s : Session σ) (answer : Answer) (next : Continuation) :
    Turn s (s.resume answer next) := by
  cases next with
  | conclude reading context => exact .rest (.refl s) (by simp)
  | publish event reading context =>
    simp only [resume]
    cases reading.outcome answer with
    | error e => exact turn_refuse s context _
    | ok result => exact turn_publish s event rfl
  | addColumns table columns context =>
    simp only [resume]
    cases answer.toDone with
    | error e => exact turn_refuse s context _
    | ok _ => exact turn_addColumns s table context columns
  | deliver key ticket =>
    obtain ⟨still, idle⟩ := still_deliver s key ticket answer.toRows
    exact .still still idle

variable (backend) in
theorem turn_advance (s : Session σ) {task : Task} (plain : task.plain = true) :
    Turn s (s.advance backend task) := by
  cases task with
  | script commands =>
    cases commands with
    | nil => exact .rest (.refl s) (by simp)
    | cons command rest => cases plain
  | round event observers =>
    cases observers with
    | nil => exact .rest (.refl s) (by simp)
    | cons observer rest => cases plain
  | fetch key =>
    obtain ⟨still, idle⟩ := still_fetch s key
    exact .still still idle
  | send call next =>
    exact .rest ((still_record s rfl).trans (still_takeHook _ _ _)) (by simp)
  | answer call next =>
    exact .rest ((still_answer backend call s).trans (still_takeHook _ _ _)) (by simp)
  | resume call answer next => exact (turn_resume _ answer next).before (still_record s rfl)
  | keepQuery label key context =>
    have keeps : Still s { s with queryHandles := s.queryHandles.insert label key } := ⟨rfl, rfl⟩
    simp only [advance, keepQuery]
    cases s.queryHandles.get? label with
    | none => exact .rest keeps (by simp)
    | some old => exact (turn_disposeQuery _ old (by simp)).before keeps
  | keepWatch label key context =>
    have keeps : Still s { s with watchHandles := s.watchHandles.insert label key } := ⟨rfl, rfl⟩
    simp only [advance, keepWatch]
    cases s.watchHandles.get? label with
    | none => exact .rest keeps (by simp)
    | some old => exact (turn_disposeWatch _ old (by simp)).before keeps
  | conclude context outcome =>
    have ends : Still s (s.record (.finished context outcome)) := still_record s rfl
    simp only [advance]
    split
    · exact .rest ⟨ends.scene, ends.news⟩ (by simp)
    · exact .rest ends (by simp)

/-! ## Runs -/

/-- What a step of a run does to those who observe the session. -/
inductive Passed (s : Session σ) : Session σ → Prop
  | turn {p : Progress σ} (turn : Turn s p) : Passed s p.1
  | asked {command : Command} {p : Progress σ} (asked : Asked s command p) : Passed s p.1
  | called {s' : Session σ} (scene : s'.scene = s.scene)
    (news : s'.news = s.news ∨ ∃ key label event, s'.news = .observed key label event :: s.news) :
    Passed s s'

theorem passed_notify (event : ChangeEvent) (s : Session σ) (observer : Observer) :
    Passed s (s.notify event observer).1 := by
  obtain ⟨scene, -, news⟩ := still_notify event s observer
  refine .called scene ?_
  cases observer with
  | listener key =>
    obtain ⟨label, news⟩ := news
    exact .inr ⟨key, label, event, news⟩
  | query key => exact .inl news
  | watch key => exact .inl news

variable (backend) in
theorem passed_advance (s : Session σ) (task : Task) : Passed s (s.advance backend task).1 := by
  cases plain : task.plain with
  | true => exact .turn (turn_advance backend s plain)
  | false =>
    cases task with
    | script commands =>
      cases commands with
      | nil => cases plain
      | cons command rest =>
        have begun := Passed.asked (asked_ask backend (.nested command.word) s command)
        exact begun
    | round event observers =>
      cases observers with
      | nil => cases plain
      | cons observer rest => exact passed_notify event s observer
    | _ => cases plain

theorem Step.passed (step : Step backend p p') : Passed p.1 p'.1 := by
  cases step with
  | advance s task rest => exact passed_advance backend s task
  | tick s tasks now => exact .called rfl (.inl rfl)
  | give s command => exact .asked (asked_ask backend .top s command)

theorem Turn.change (turn : Turn s p) : Scene.Change s.scene p.1.scene := by
  cases turn with
  | still still idle => exact still.scene ▸ .same _
  | shift shift news idle => exact .shift shift
  | publish event scene news tasks idle => exact scene ▸ .same _

theorem Passed.change (passed : Passed s s') : Scene.Change s.scene s'.scene := by
  cases passed with
  | turn turn => exact turn.change
  | asked asked =>
    cases asked with
    | turn other turn => exact turn.change
    | enlists enlists news idle => exact .enlists enlists
  | called scene news => exact scene ▸ .same _

/-- The registrations of a run are in order at every point. -/
theorem Reachable.orderly (reachable : Reachable backend p) : p.1.scene.Orderly := by
  induction reachable with
  | start storage scripted now => exact Bus.orderly_empty _
  | step _ step ih => exact (step.passed.change.orderly ih).1

/-- What is left of the registrations is in the same order later in the run. -/
theorem Later.continues (later : Later backend p p') (orderly : p.1.scene.Orderly) :
    Scene.Continues p.1.scene p'.1.scene := by
  have both : p'.1.scene.Orderly ∧ Scene.Continues p.1.scene p'.1.scene := by
    induction later with
    | refl => exact ⟨orderly, .refl _⟩
    | tail _ step ih =>
      obtain ⟨after, further⟩ := step.passed.change.orderly ih.1
      exact ⟨after, ih.2.trans orderly further⟩
  exact both.2

/-- In a run queries and watches are ended, and nothing else about them is changed. -/
theorem Later.keeps (later : Later backend p p') : p.1.scene.Keeps p'.1.scene := by
  induction later with
  | refl => exact .of_same rfl
  | tail _ step ih => exact ih.trans step.passed.change.keeps

end Session

end LiveTable
