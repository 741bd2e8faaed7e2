import LiveTable.Proofs.Reactions

/-!
# Promptness

The marks of a run are read off its tasks and its history. Every step of a run plays its marks on the
machine of reactions: what is due is said by the first task alone, since a fetch and the call of a fetch
are done before any other task. So in every run each query fetches once for its opening, once for each turn
in a publish on its table and once for each refresh while it is active, and never otherwise; each watch
calls its listener once for its opening and once for each turn.
-/

namespace LiveTable

/-- The marks of a task when it is advanced. -/
def Task.marks : Task → List Mark
  | .send call (.deliver key _) => [.sends (.query key) call]
  | task => task.signals.map .signal

/-- The mark of what happens in a session. -/
def Happening.mark? {σ : Type} (s : Session σ) : Happening → Option Mark
  | .asked (.openQuery table columns filter order _ _) =>
    match Session.readSpec table columns filter order with
    | .ok spec => some (.opens (.query s.queries.length) (.query spec))
    | .error _ => none
  | .asked (.openWatch table _ _) => some (.opens (.watch s.watches.length) (.watch table))
  | .asked (.refresh label) =>
    ((s.queryHandles.get? label).filter (· < s.queries.length)).map fun key => .refreshes (.query key)
  | .published event _ => some (.signal (.begins event s.bus))
  | .fetched key _ => some (.reacts (.query key))
  | .notified key _ => some (.reacts (.watch key))
  | .queryDisposed key => some (.disposes (.query key))
  | .watchDisposed key => some (.disposes (.watch key))
  | _ => none

/-- The query that started a fetch, or the watch that called its listener. -/
def Happening.reaction? : Happening → Option Observer
  | .fetched key _ => some (.query key)
  | .notified key _ => some (.watch key)
  | _ => none

/-- The command that was begun. -/
def Happening.asked? : Happening → Option Command
  | .asked command => some command
  | _ => none

/-- The words of the commands that were begun, the latest first. -/
def wordsOf (history : List Happening) : List String :=
  (history.filterMap Happening.asked?).map Command.word

theorem not_asked {history : List Happening} {command : Command} (none : command.word ∉ wordsOf history) :
    .asked command ∉ history := by
  intro asked
  have begun : command ∈ history.filterMap Happening.asked? := List.mem_filterMap.mpr ⟨_, asked, rfl⟩
  exact none (List.mem_map_of_mem begun)

/-- Whose reaction begins. -/
def Mark.reaction? : Mark → Option Observer
  | .reacts observer => some observer
  | _ => none

/-- The command registers a query or a watch, or refreshes a query. -/
def Command.cues : Command → Bool
  | .openQuery .. => true
  | .openWatch .. => true
  | .refresh _ => true
  | _ => false

/-- The task is a part of a fetch that is done before any other task. -/
@[simp] def Task.isErrand : Task → Bool
  | .fetch _ => true
  | .send _ (.deliver ..) => true
  | _ => false

/-- The task calls no observers and is no part of a fetch. -/
@[simp] def Task.isCalm : Task → Bool
  | .round .. => false
  | .fetch _ => false
  | .send _ (.deliver ..) => false
  | _ => true

namespace Session

variable {σ : Type} {backend : Backend σ} {s s' : Session σ} {p p' : Progress σ}
  {marks trace : List Mark} {a : Stage}

/-- The queries and watches of a session, with a flag for the active ones. -/
def reactor (s : Session σ) : Observer → Option (Reactor × Bool)
  | .listener _ => none
  | .query key => s.queries[key]?.map fun q => (.query q.spec, q.active)
  | .watch key => s.watches[key]?.map fun w => (.watch w.table, w.active)

/-- The marks of what happened between two sessions. -/
def marked (s s' : Session σ) : List Mark := (since s s').filterMap (Happening.mark? s)

/-- A run, with its marks. -/
inductive Marks (backend : Backend σ) : Progress σ → List Mark → Progress σ → Prop
  | done (p : Progress σ) : Marks backend p [] p
  | advance {s : Session σ} {task : Task} {rest : List Task} {marks : List Mark} {p : Progress σ}
    (later : Marks backend ((s.advance backend task).1, (s.advance backend task).2 ++ rest) marks p) :
    Marks backend (s, task :: rest) (task.marks ++ s.marked (s.advance backend task).1 ++ marks) p
  | tick {s : Session σ} {tasks : List Task} {now : Int64} {marks : List Mark} {p : Progress σ}
    (later : Marks backend ({ s with now }, tasks) marks p) : Marks backend (s, tasks) marks p
  | give {s : Session σ} {command : Command} {marks : List Mark} {p : Progress σ}
    (later : Marks backend (s.ask backend .top command) marks p) :
    Marks backend (s, []) (s.marked (s.ask backend .top command).1 ++ marks) p

/-- The marks that a task will make at once if it is done next. -/
def duties (s : Session σ) : Task → List Mark
  | .fetch key =>
    match s.reactor (.query key) with
    | some (r, true) => r.reaction (.query key)
    | _ => []
  | .send call (.deliver key _) => [.sends (.query key) call]
  | _ => []

/-- Who is there, and what is due with the first task. -/
def stage (p : Progress σ) : Stage :=
  ⟨p.1.reactor, match p.2 with
    | [] => []
    | task :: _ => p.1.duties task⟩

/-- The observers that a round is to call are subscribers, or queries and watches of the table. -/
def Invites (s : Session σ) : Task → Prop
  | .round event observers => ∀ observer ∈ observers, observer.listens = true ∨
      ∃ r active, s.reactor observer = some (r, active) ∧ r.table = event.table
  | _ => True

/-- Two sessions with the same reactors and the same history. -/
structure Unmoved (s s' : Session σ) : Prop where
  reactor : s'.reactor = s.reactor
  history : s'.history = s.history

/-- Some marks lead to a session and the tasks that are left. Only the first task can be a part of a
fetch. -/
structure Attends (a : Stage) (marks : List Mark) (p : Progress σ) : Prop where
  beats : Beats a marks (stage p)
  errands : ∀ task ∈ p.2.tail, task.isErrand = false
  invites : ∀ task ∈ p.2, p.1.Invites task

/-! ## Marks -/

theorem Task.signals_marks (task : Task) : task.marks.filterMap Mark.signal? = task.signals := by
  have whole (signals : List Signal) : (signals.map .signal).filterMap Mark.signal? = signals := by
    rw [List.filterMap_map]
    exact List.filterMap_some
  cases task with
  | send call next => cases next <;> rfl
  | _ => exact whole _

/-- What is read off the marks of what happened is read off the happenings, if openings and refreshes, the
marks of commands, are not read. -/
theorem filterMap_marked {α : Type} {f : Mark → Option α} {g : Happening → Option α}
    (opens : ∀ observer r, f (.opens observer r) = none)
    (refreshes : ∀ observer, f (.refreshes observer) = none) (asked : ∀ command, g (.asked command) = none)
    (others : ∀ h, (∀ command, h ≠ .asked command) → (h.mark? s).bind f = g h) :
    (s.marked s').filterMap f = (since s s').filterMap g := by
  rw [marked, List.filterMap_filterMap]
  congr 1
  funext h
  cases h with
  | asked command =>
    rw [asked]
    cases command with
    | openQuery table columns filter order label plan =>
      simp only [Happening.mark?]
      cases readSpec table columns filter order with
      | error e => rfl
      | ok spec => exact opens _ _
    | openWatch table label plan => exact opens _ _
    | refresh label =>
      simp only [Happening.mark?]
      cases (s.queryHandles.get? label).filter (· < s.queries.length) with
      | none => rfl
      | some key => exact refreshes _
    | _ => rfl
  | _ => exact others _ fun _ same => nomatch same

/-- The publishes among the marks of what happened are those that began. -/
theorem signals_marked (s s' : Session σ) : (s.marked s').filterMap Mark.signal? = s.begun s' := by
  refine filterMap_marked (fun _ _ => rfl) (fun _ => rfl) (fun _ => rfl) fun h other => ?_
  cases h <;> first | rfl | exact absurd rfl (other _)

/-- The publishing among the marks of a run is what the run shows. -/
theorem Marks.shows (marks : Marks backend p trace p') :
    Shows backend p (trace.filterMap Mark.signal?) p' := by
  induction marks with
  | done p => exact .done p
  | advance later ih =>
    rw [List.filterMap_append, List.filterMap_append, Task.signals_marks, signals_marked]
    exact .advance ih
  | tick later ih => exact .tick ih
  | give later ih =>
    rw [List.filterMap_append, signals_marked]
    exact .give ih

/-- The marked reactions are those that are recorded. -/
theorem reactions_marked (s s' : Session σ) :
    (s.marked s').filterMap Mark.reaction? = (since s s').filterMap Happening.reaction? := by
  refine filterMap_marked (fun _ _ => rfl) (fun _ => rfl) (fun _ => rfl) fun h other => ?_
  cases h <;> first | rfl | exact absurd rfl (other _)

theorem Task.reactions_marks (task : Task) : task.marks.filterMap Mark.reaction? = [] := by
  have none (signals : List Signal) : (signals.map .signal).filterMap Mark.reaction? = [] := by
    simp [List.filterMap_map, Function.comp_def, Mark.reaction?]
  cases task with
  | send call next => cases next <;> rfl
  | _ => exact none _

theorem Marks.reactions (marks : Marks backend p trace p') :
    trace.filterMap Mark.reaction? = (since p.1 p'.1).filterMap Happening.reaction? := by
  induction marks with
  | done p => rw [since_of_same rfl]; rfl
  | @advance s task rest marks p later ih =>
    have step : s.history <:+ (s.advance backend task).1.history :=
      (Step.advance s task rest).history
    rw [since_trans step later.shows.later.history, List.filterMap_append, List.filterMap_append,
      List.filterMap_append, Task.reactions_marks, reactions_marked, ih, List.nil_append]
  | tick later ih => exact ih
  | @give s command marks p later ih =>
    have step : s.history <:+ (s.ask backend .top command).1.history := (Step.give s command).history
    rw [since_trans step later.shows.later.history, List.filterMap_append, List.filterMap_append,
      reactions_marked, ih]

theorem marked_of_history (new : List Happening) (grown : s'.history = new ++ s.history) :
    s.marked s' = new.reverse.filterMap (Happening.mark? s) := by
  rw [marked, since_of_history grown]

/-! ## Reactors -/

theorem Alike.reactor (alike : Alike s s') : s'.reactor = s.reactor := by
  funext observer
  cases observer with
  | listener key => rfl
  | query key =>
    have same := congrArg (Option.map fun q : Query => (Reactor.query q.spec, q.active))
      (alike.query key)
    rwa [Option.map_map, Option.map_map] at same
  | watch key =>
    have same := congrArg (Option.map fun w : Watch => (Reactor.watch w.table, w.active))
      (alike.watch key)
    rwa [Option.map_map, Option.map_map] at same

/-- Changing neither its specification nor its activity leaves a query what it is. -/
theorem reactor_setQuery (s : Session σ) (key : Nat) {f : Query → Query}
    (spec : ∀ q, (f q).spec = q.spec) (active : ∀ q, (f q).active = q.active) :
    (s.setQuery key f).reactor = s.reactor := by
  funext observer
  cases observer with
  | query other =>
    by_cases same : key = other
    · subst same
      cases query : s.queries[key]? <;> simp [reactor, setQuery, query, spec, active]
    · simp [reactor, setQuery, same]
  | _ => rfl

/-- Entries of a list that grows by one. -/
theorem map_append_update {α β : Type} (f : α → β) (l : List α) (new : α) :
    (fun key => (l ++ [new])[key]?.map f) =
      Function.update (fun key => l[key]?.map f) l.length (some (f new)) := by
  funext key
  rw [Function.update_apply]
  rcases Nat.lt_trichotomy key l.length with old | rfl | beyond
  · rw [if_neg (Nat.ne_of_lt old), List.getElem?_append_left old]
  · simp
  · rw [if_neg (Nat.ne_of_gt beyond), List.getElem?_eq_none (by simp; omega),
      List.getElem?_eq_none (Nat.le_of_lt beyond)]

/-- Entries of a list of which one is changed. -/
theorem map_modify_update {α β : Type} (f : α → β) (g : α → α) {l : List α} {key : Nat} {old : α}
    (found : l[key]? = some old) :
    (fun other => (l.modify key g)[other]?.map f) =
      Function.update (fun other => l[other]?.map f) key (some (f (g old))) := by
  funext other
  rw [Function.update_apply]
  by_cases same : other = key
  · subst same
    simp [found]
  · simp [same, Ne.symm same]

theorem reactor_addQuery (s : Session σ) (spec : QuerySpec) (label : String) (plan : Plan) :
    (s.addQuery spec label plan).2.reactor =
      Function.update s.reactor (.query s.queries.length) (some (.query spec, true)) := by
  funext observer
  rw [Function.update_apply]
  cases observer with
  | query key =>
    have entries := congrFun (map_append_update (fun q : Query => (Reactor.query q.spec, q.active))
      s.queries ⟨label, spec, plan, ⟨spec.table, s.bus.nextNumber⟩, true, [], none, 0, 0⟩) key
    simpa [reactor, addQuery, Bus.subscribe, Function.update_apply] using entries
  | _ => rfl

theorem reactor_addWatch (s : Session σ) (table label : String) (plan : Plan) :
    (s.addWatch table label plan).2.reactor =
      Function.update s.reactor (.watch s.watches.length) (some (.watch table, true)) := by
  funext observer
  rw [Function.update_apply]
  cases observer with
  | watch key =>
    have entries := congrFun (map_append_update (fun w : Watch => (Reactor.watch w.table, w.active))
      s.watches ⟨label, table, plan, ⟨table, s.bus.nextNumber⟩, true⟩) key
    simpa [reactor, addWatch, Bus.subscribe, Function.update_apply] using entries
  | _ => rfl

theorem reactor_endQuery (s : Session σ) {key : Nat} {q : Query} (query : s.queries[key]? = some q) :
    (s.setQuery key fun q => { q with active := false }).reactor =
      Function.update s.reactor (.query key) (some (.query q.spec, false)) := by
  funext observer
  rw [Function.update_apply]
  cases observer with
  | query other =>
    have entries := congrFun (map_modify_update (fun q : Query => (Reactor.query q.spec, q.active))
      (fun q => { q with active := false }) query) other
    simpa [reactor, setQuery, Function.update_apply] using entries
  | _ => rfl

theorem reactor_endWatch (s : Session σ) {key : Nat} {w : Watch} (watch : s.watches[key]? = some w) :
    (s.setWatch key fun w => { w with active := false }).reactor =
      Function.update s.reactor (.watch key) (some (.watch w.table, false)) := by
  funext observer
  rw [Function.update_apply]
  cases observer with
  | watch other =>
    have entries := congrFun (map_modify_update (fun w : Watch => (Reactor.watch w.table, w.active))
      (fun w => { w with active := false }) watch) other
    simpa [reactor, setWatch, Function.update_apply] using entries
  | _ => rfl

/-! ## Tasks -/

theorem duties_calm (s : Session σ) {task : Task} (calm : task.isCalm = true) : s.duties task = [] := by
  cases task with
  | fetch key => cases calm
  | send call next => cases next <;> first | rfl | cases calm
  | _ => rfl

theorem isErrand_calm {task : Task} (calm : task.isCalm = true) : task.isErrand = false := by
  cases task with
  | fetch key => cases calm
  | send call next => cases next <;> first | rfl | cases calm
  | _ => rfl

theorem invites_calm (s : Session σ) {task : Task} (calm : task.isCalm = true) : s.Invites task := by
  cases task with
  | round event observers => cases calm
  | _ => trivial

theorem duties_errand (s : Session σ) {task : Task} (errand : task.isErrand = false) :
    s.duties task = [] := by
  cases task with
  | fetch key => cases errand
  | send call next => cases next <;> first | rfl | cases errand
  | _ => rfl

/-- With calm tasks nothing is due. -/
theorem Attends.leave {reactor : Observer → Option (Reactor × Bool)} {tasks : List Task}
    (beats : Beats a marks ⟨reactor, []⟩) (same : s'.reactor = reactor)
    (calm : ∀ task ∈ tasks, task.isCalm = true) : Attends a marks (s', tasks) where
  beats := by
    have nothing : stage (s', tasks) = ⟨reactor, []⟩ := by
      rw [← same]
      cases tasks with
      | nil => rfl
      | cons task rest => exact congrArg _ (duties_calm s' (calm task (List.mem_cons_self ..)))
    rwa [nothing]
  errands task member := isErrand_calm (calm task (List.mem_of_mem_tail member))
  invites task member := invites_calm s' (calm task member)

/-- What is told without a mark, and changes no reactor, leaves all as it is. -/
theorem Attends.rest {tasks : List Task} (same : s'.reactor = s.reactor) (new : List Happening)
    (grown : s'.history = new ++ s.history) (silent : ∀ h ∈ new, h.mark? s = none)
    (calm : ∀ task ∈ tasks, task.isCalm = true) :
    Attends ⟨s.reactor, []⟩ (s.marked s') (s', tasks) := by
  have quiet : s.marked s' = [] := by
    rw [marked_of_history new grown]
    exact List.filterMap_eq_nil_iff.mpr fun h member => silent h (List.mem_reverse.mp member)
  rw [quiet]
  exact .leave .nil same calm

/-! ## Operations -/

theorem Unmoved.refl (s : Session σ) : Unmoved s s := ⟨rfl, rfl⟩

theorem attends_refuse (s : Session σ) (context : Context) (f : Failure) :
    Attends ⟨s.reactor, []⟩ (s.marked (s.refuse context f).1) (s.refuse context f) :=
  .rest rfl [] rfl (by simp) (by simp)

/-- Requests of the store are no fetches. -/
theorem attends_request (s : Session σ) (context : Context) (call : Except Error Call)
    {next : Continuation} (foreign : ∀ call, (Task.send call next).isCalm = true) :
    Attends ⟨s.reactor, []⟩ (s.marked (s.request context call next).1)
      (s.request context call next) := by
  cases call with
  | error e => exact attends_refuse s context _
  | ok call => exact .rest rfl [] rfl (by simp) (by simpa using foreign call)

theorem attends_addColumns (s : Session σ) (table : String) (context : Context)
    (columns : List (String × ColumnDef)) :
    Attends ⟨s.reactor, []⟩ (s.marked (s.addColumns table context columns).1)
      (s.addColumns table context columns) := by
  cases columns with
  | nil => exact .rest rfl [] rfl (by simp) (by simp)
  | cons column rest => exact attends_request s context _ fun _ => rfl

theorem attends_withArgument {α : Type} (s : Session σ) (context : Context)
    (argument : Except Failure α) {next : α → Progress σ}
    (attends : ∀ x, Attends ⟨s.reactor, []⟩ (s.marked (next x).1) (next x)) :
    Attends ⟨s.reactor, []⟩ (s.marked (s.withArgument context argument next).1)
      (s.withArgument context argument next) := by
  cases argument with
  | error f => exact attends_refuse s context f
  | ok x => exact attends x

theorem attends_withHandle {α : Type} (s : Session σ) (context : Context) (handle : Option α)
    {next : α → Progress σ}
    (attends : ∀ x, Attends ⟨s.reactor, []⟩ (s.marked (next x).1) (next x)) :
    Attends ⟨s.reactor, []⟩ (s.marked (s.withHandle context handle next).1)
      (s.withHandle context handle next) := by
  cases handle with
  | none => exact attends_refuse s context _
  | some x => exact attends x

/-- A command that ends at once and touches no reactor. -/
theorem attends_ended (unmoved : Unmoved s s') (context : Context) (outcome : Outcome) :
    Attends ⟨s.reactor, []⟩ (s.marked (s'.ended context outcome).1) (s'.ended context outcome) :=
  .rest unmoved.reactor [] unmoved.history (by simp) (by simp)

/-- A publish invites those who are registered for its table now. -/
theorem attends_publish (posted : Posted s.reactor s.bus) (event : ChangeEvent) {task : Task}
    (calm : task.isCalm = true) :
    Attends ⟨s.reactor, []⟩ (s.marked (s.publish event).1)
      ((s.publish event).1, [(s.publish event).2, task]) where
  beats := by
    have mark : s.marked (s.publish event).1 = [.signal (.begins event s.bus)] :=
      marked_of_history [.published event (s.bus.observers event.table)] rfl
    rw [mark]
    exact .single (.begins posted)
  errands := by simpa [publish] using isErrand_calm calm
  invites := by
    intro other member
    rcases List.mem_cons.mp member with rfl | member
    · intro observer listed
      rcases posted.known event.table observer listed with listens | ⟨r, active, known⟩
      · exact .inl listens
      · exact .inr ⟨r, active, known, ((posted.active observer r active known _).mp listed).1⟩
    · rw [List.mem_singleton.mp member]
      exact invites_calm _ calm

/-- Disposing makes a mark if and only if the query was active. -/
theorem attends_disposeQuery (unmoved : Unmoved s s') (key : Nat) {tasks : List Task}
    (calm : ∀ task ∈ tasks, task.isCalm = true) :
    Attends ⟨s.reactor, []⟩ (s.marked (s'.disposeQuery key)) (s'.disposeQuery key, tasks) := by
  cases queryDisposed s' key with
  | idle inactive done =>
    rw [done]
    exact .rest unmoved.reactor [] unmoved.history (by simp) calm
  | @ended q query active done =>
    have mark : s.marked (s'.disposeQuery key) = [.disposes (.query key)] := by
      rw [marked_of_history [.queryDisposed key] (by rw [done, ← unmoved.history]; rfl)]
      rfl
    have known : s.reactor (.query key) = some (.query q.spec, true) := by
      rw [← unmoved.reactor]
      simp [reactor, query, active]
    have ends : (s'.disposeQuery key).reactor =
        Function.update s.reactor (.query key) (some (.query q.spec, false)) := by
      rw [done, ← unmoved.reactor]
      exact reactor_endQuery s' query
    rw [mark]
    exact .leave (.single (.disposes known)) ends calm

theorem attends_disposeWatch (unmoved : Unmoved s s') (key : Nat) {tasks : List Task}
    (calm : ∀ task ∈ tasks, task.isCalm = true) :
    Attends ⟨s.reactor, []⟩ (s.marked (s'.disposeWatch key)) (s'.disposeWatch key, tasks) := by
  cases watchDisposed s' key with
  | idle inactive done =>
    rw [done]
    exact .rest unmoved.reactor [] unmoved.history (by simp) calm
  | @ended w watch active done =>
    have mark : s.marked (s'.disposeWatch key) = [.disposes (.watch key)] := by
      rw [marked_of_history [.watchDisposed key] (by rw [done, ← unmoved.history]; rfl)]
      rfl
    have known : s.reactor (.watch key) = some (.watch w.table, true) := by
      rw [← unmoved.reactor]
      simp [reactor, watch, active]
    have ends : (s'.disposeWatch key).reactor =
        Function.update s.reactor (.watch key) (some (.watch w.table, false)) := by
      rw [done, ← unmoved.reactor]
      exact reactor_endWatch s' watch
    rw [mark]
    exact .leave (.single (.disposes known)) ends calm

variable (backend) in
/-- A command that gives no cue makes at most the mark of a publish or of a disposal. -/
theorem attends_perform (context : Context) (posted : Posted s.reactor s.bus) {command : Command}
    (other : command.cues = false) (same : command ≠ .reopen) :
    Attends ⟨s.reactor, []⟩ (s.marked (s.perform backend context command).1)
      (s.perform backend context command) := by
  cases command with
  | createTable table pairs =>
    exact attends_withArgument s context _ fun spec => attends_request s context _ fun _ => rfl
  | addColumns table pairs =>
    refine attends_withArgument s context _ fun spec => ?_
    cases checkName table with
    | error e => exact attends_refuse s context _
    | ok _ => exact attends_addColumns s table context _
  | createIndex table column => exact attends_request s context _ fun _ => rfl
  | dropTable table =>
    simp only [perform]
    cases Request.dropTable table with
    | error e => exact attends_refuse s context _
    | ok call => exact attends_publish posted _ rfl
  | tables => exact .rest rfl [] rfl (by simp) (by simp)
  | schema table => exact attends_request s context _ fun _ => rfl
  | validateSchema table columns =>
    simp only [perform]
    split
    · exact attends_refuse s context _
    · exact attends_request s context _ fun _ => rfl
  | insert table row =>
    exact attends_withArgument s context _ fun row => attends_request s context _ fun _ => rfl
  | update table filter row =>
    exact attends_withArgument s context _ fun filter =>
      attends_withArgument s context _ fun row => attends_request s context _ fun _ => rfl
  | delete table filter =>
    exact attends_withArgument s context _ fun filter => attends_request s context _ fun _ => rfl
  | select table columns filter order =>
    exact attends_withArgument s context _ fun spec => attends_request s context _ fun _ => rfl
  | raw kind text params => exact .rest rfl [] rfl (by simp) (by simp)
  | reply replies =>
    have queues : Unmoved s { s with replies := s.replies ++ replies } := ⟨rfl, rfl⟩
    exact attends_ended queues context _
  | hook kind moment script =>
    have queues : Unmoved s { s with hooks := s.hooks ++ [Hook.mk kind moment script] } := ⟨rfl, rfl⟩
    exact attends_ended queues context _
  | reopen => exact absurd rfl same
  | subscribe table label plan =>
    have listens : Unmoved s (s.addListener table label plan) := ⟨rfl, rfl⟩
    exact attends_ended listens context _
  | unsubscribe label =>
    refine attends_withHandle s context _ fun subscription => ?_
    have leaves : Unmoved s (s.dropListener label subscription) := ⟨rfl, rfl⟩
    exact attends_ended leaves context _
  | publish table kind row =>
    exact attends_withArgument s context _ fun row => attends_publish posted _ rfl
  | count table => exact attends_ended (.refl s) context _
  | describeBus => exact attends_ended (.refl s) context _
  | openQuery table columns filter order label plan => cases other
  | refresh label => cases other
  | disposeQuery label =>
    exact attends_withHandle s context _ fun key => attends_disposeQuery (.refl s) key (by simp)
  | dropQuery label =>
    refine attends_withHandle s context _ fun key => ?_
    have forgets : Unmoved s { s with queryHandles := s.queryHandles.erase label } := ⟨rfl, rfl⟩
    exact attends_disposeQuery forgets key (by simp)
  | queryState label =>
    exact attends_withHandle s context _ fun q => attends_ended (.refl s) context _
  | openWatch table label plan => cases other
  | watchState label =>
    exact attends_withHandle s context _ fun w => attends_ended (.refl s) context _
  | disposeWatch label =>
    exact attends_withHandle s context _ fun key => attends_disposeWatch (.refl s) key (by simp)
  | dropWatch label =>
    refine attends_withHandle s context _ fun key => ?_
    have forgets : Unmoved s { s with watchHandles := s.watchHandles.erase label } := ⟨rfl, rfl⟩
    exact attends_disposeWatch forgets key (by simp)
  | unknown word => exact attends_refuse s context _

/-- What happens after a command was begun is marked as it is from then on. -/
theorem marked_record {h : Happening} (silent : h.mark? s = none)
    (past : (s.record h).history <:+ s'.history) : s.marked s' = (s.record h).marked s' := by
  have begins : s.history <:+ (s.record h).history := List.suffix_cons ..
  have first : since s (s.record h) = [h] := since_of_record rfl
  rw [marked, since_trans begins past, first, List.filterMap_append,
    List.filterMap_eq_nil_iff.mpr (by simpa using silent)]
  rfl

/-- With the fetch of a query that is active its reaction is due. -/
theorem stage_fetch {key : Nat} {r : Reactor} {active : Bool}
    (known : s.reactor (.query key) = some (r, active)) (tasks : List Task) :
    stage (s, .fetch key :: tasks) =
      ⟨s.reactor, if active then r.reaction (.query key) else []⟩ := by
  simp only [stage, duties, known]
  cases active <;> rfl

/-- A query that is opened fetches next. -/
theorem attends_addQuery (s : Session σ) (spec : QuerySpec) (label : String) (plan : Plan)
    {task : Task} (calm : task.isCalm = true) :
    Attends ⟨s.reactor, []⟩ [.opens (.query s.queries.length) (.query spec)]
      ((s.addQuery spec label plan).2, [.fetch s.queries.length, task]) where
  beats := by
    have new : s.reactor (.query s.queries.length) = none := by simp [reactor]
    have opened := reactor_addQuery s spec label plan
    have known : (s.addQuery spec label plan).2.reactor (.query s.queries.length) =
        some (.query spec, true) := (congrFun opened _).trans (Function.update_self ..)
    rw [stage_fetch known, opened, if_pos rfl]
    exact .single (.opens new)
  errands := by simpa using isErrand_calm calm
  invites := by simpa [Invites] using invites_calm _ calm

/-- A watch that is opened calls its listener at once. -/
theorem attends_addWatch (s : Session σ) (table label : String) (plan : Plan)
    (same : s'.reactor = (s.addWatch table label plan).2.reactor) {tasks : List Task}
    (calm : ∀ task ∈ tasks, task.isCalm = true) :
    Attends ⟨s.reactor, []⟩
      [.opens (.watch s.watches.length) (.watch table), .reacts (.watch s.watches.length)]
      (s', tasks) := by
  have new : s.reactor (.watch s.watches.length) = none := by simp [reactor]
  exact .leave (.cons (.opens new) (.single .due)) (same.trans (reactor_addWatch ..)) calm

/-- A query that has a cue fetches next. -/
theorem attends_cue {key : Nat} {r : Reactor} {active : Bool} {cue : Mark}
    (known : s.reactor (.query key) = some (r, active)) (cued : r.Cue (.query key) cue)
    {tasks : List Task} (calm : ∀ task ∈ tasks, task.isCalm = true) :
    Attends ⟨s.reactor, []⟩ [cue] (s, .fetch key :: tasks) where
  beats := by
    rw [stage_fetch known]
    exact .single (.cue known rfl cued)
  errands task member := isErrand_calm (calm task member)
  invites task member := by
    rcases List.mem_cons.mp member with rfl | member
    · trivial
    · exact invites_calm s (calm task member)

variable (backend) in
/-- Beginning a command makes at most one cue. -/
theorem attends_ask (context : Context) (posted : Posted s.reactor s.bus) {command : Command}
    (same : command ≠ .reopen) :
    Attends ⟨s.reactor, []⟩ (s.marked (s.ask backend context command).1)
      (s.ask backend context command) := by
  cases cues : command.cues with
  | false =>
    have past := (performed_perform backend context (s.record (.asked command)) same
      (List.mem_cons_self ..)).moves.history
    have silent : Happening.mark? s (.asked command) = none := by
      cases command <;> first | rfl | cases cues
    have attends := attends_perform backend context (s := s.record (.asked command)) posted cues same
    rwa [ask, marked_record silent past]
  | true =>
    cases command with
    | openQuery table columns filter order label plan =>
      simp only [ask, perform]
      cases read : readSpec table columns filter order with
      | error f => exact .rest rfl [_] rfl (by simp [Happening.mark?, read]) (by simp)
      | ok spec =>
        simp only [withArgument]
        rw [marked_of_history [_] rfl]
        simp only [List.reverse_singleton, List.filterMap_cons, List.filterMap_nil, Happening.mark?, read]
        exact attends_addQuery (s.record _) spec label plan rfl
    | openWatch table label plan =>
      have calls := alike_watchScript ((((s.record (.asked (.openWatch table label plan))).addWatch table
        label plan).2).record (.notified s.watches.length label)) s.watches.length
      have mark := marked_of_history (s := s)
        [.notified s.watches.length label, .asked (.openWatch table label plan)] calls.history
      have attends : Attends ⟨s.reactor, []⟩ [.opens (.watch s.watches.length) (.watch table),
          .reacts (.watch s.watches.length)] (s.ask backend context (.openWatch table label plan)) :=
        attends_addWatch (s.record _) table label plan calls.reactor (by simp)
      exact mark ▸ attends
    | refresh label =>
      have mark : s.marked (s.record (.asked (.refresh label))) = _ := marked_of_history [_] rfl
      cases kept : s.queryHandles.get? label with
      | none =>
        have refused : s.ask backend context (.refresh label) =
            (s.record (.asked (.refresh label))).refuse context .noHandle := by
          simp only [ask, perform, withHandle]
          rw [show (s.record (.asked (.refresh label))).queryHandles.get? label = none from kept]
        rw [refused]
        exact .rest rfl [_] rfl (by simp [Happening.mark?, kept]) (by simp)
      | some key =>
        have fetches : s.ask backend context (.refresh label) =
            (s.record (.asked (.refresh label)), [.fetch key, .conclude context .done]) := by
          simp only [ask, perform, withHandle]
          rw [show (s.record (.asked (.refresh label))).queryHandles.get? label = some key from kept]
        rw [fetches]
        cases query : s.queries[key]? with
        | some q =>
          have there : key < s.queries.length := (List.getElem?_eq_some_iff.mp query).1
          have cue : s.marked (s.record (.asked (.refresh label))) = [.refreshes (.query key)] := by
            simp [mark, Happening.mark?, kept, there]
          have known : (s.record (.asked (.refresh label))).reactor (.query key) =
              some (.query q.spec, q.active) := by
            simp [reactor, record, query]
          rw [cue]
          exact attends_cue known (.refresh q.spec) (by simp)
        | none =>
          -- Then there is nothing to refresh.
          have absent : s.queries.length ≤ key := List.getElem?_eq_none_iff.mp query
          have quiet : s.marked (s.record (.asked (.refresh label))) = [] := by
            simp [mark, Happening.mark?, kept, absent]
          have nobody : (s.record (.asked (.refresh label))).reactor (.query key) = none := by
            simp [reactor, record, query]
          rw [quiet]
          refine ⟨?_, by simp, by simp [Invites]⟩
          simp only [stage, duties, nobody]
          exact .nil
    | _ => cases cues

/-! ## Steps -/

/-- Calling an observer is a cue for it. -/
theorem attends_notify {event : ChangeEvent} {observer : Observer}
    (invited : observer.listens = true ∨
      ∃ r active, s.reactor observer = some (r, active) ∧ r.table = event.table) :
    Attends ⟨s.reactor, []⟩ (.signal (.calls event observer) :: s.marked (s.notify event observer).1)
      (s.notify event observer) := by
  cases observer with
  | listener key =>
    have calls := alike_listenerScript
      (s.record (.observed key ((s.listeners[key]?.map (·.label)).getD "") event)) key
    have quiet : s.marked (s.notify event (.listener key)).1 = [] :=
      marked_of_history [.observed key _ event] calls.history
    rw [quiet]
    exact .leave (.single .hears) calls.reactor (by simp)
  | query key =>
    obtain listens | ⟨r, active, known, same⟩ := invited
    · cases listens
    · have quiet : s.marked (s.notify event (.query key)).1 = [] :=
        marked_of_history [] rfl
      rw [quiet]
      exact attends_cue known (.turn same.symm) (by simp)
  | watch key =>
    obtain listens | ⟨r, active, known, same⟩ := invited
    · cases listens
    · obtain ⟨w, watch, entry⟩ := Option.map_eq_some_iff.mp known
      obtain ⟨rfl, rfl⟩ := Prod.mk.inj entry
      simp only [notify, watch]
      cases active : w.active with
      | true =>
        have calls := alike_watchScript (s.record (.notified key w.label)) key
        have mark := marked_of_history (s := s) [.notified key w.label] calls.history
        have here : s.reactor (.watch key) = some (.watch w.table, true) := by rw [known, active]
        simp only [if_true]
        rw [mark]
        exact .leave (.cons (.cue here rfl (.turn same.symm)) (.single .due)) calls.reactor (by simp)
      | false =>
        have quiet : s.marked s = [] := marked_of_history [] rfl
        have gone : s.reactor (.watch key) = some (.watch w.table, false) := by rw [known, active]
        simp only [Bool.false_eq_true, if_false]
        rw [quiet]
        exact .leave (.single (.cue gone rfl (.turn same.symm))) rfl (by simp)

/-- Delivering a result makes no mark. -/
theorem quiet_deliver (s : Session σ) (key ticket : Nat) (result : Except Error (List Row)) :
    (s.deliver key ticket result).1.reactor = s.reactor ∧
      (∃ new, (s.deliver key ticket result).1.history = new ++ s.history ∧
        ∀ h ∈ new, ∀ s₀ : Session σ, h.mark? s₀ = none) ∧
      ∀ task ∈ (s.deliver key ticket result).2, task.isCalm = true := by
  cases delivered s key ticket result with
  | lost none done =>
    rw [done]
    exact ⟨rfl, ⟨[], rfl, by simp⟩, by simp⟩
  | @accepted q query active new s' script calls done =>
    have taken := reactor_setQuery (s.record (.arrived key ticket result)) key
      (fun q => q.spec_take ticket result) fun q => q.active_take ticket result
    rw [done]
    refine ⟨calls.reactor.trans taken,
      ⟨[.callback key ticket q.label result, .arrived key ticket result], calls.history, ?_⟩, by simp⟩
    cases result <;> simp [Happening.callback, Happening.mark?]
  | discarded query late done =>
    rw [done]
    exact ⟨rfl, ⟨[.discarded key ticket, .arrived key ticket result], rfl, by simp [Happening.mark?]⟩,
      by simp⟩

/-- A fetch does what is due with it, and then its call is due if it has one. -/
theorem attends_fetch (s : Session σ) (key : Nat) (tasks : List Task) :
    Attends (stage (s, .fetch key :: tasks)) (s.marked (s.fetch key).1) (s.fetch key) := by
  have started (q : Query) : (s.startFetch key (q.started + 1)).reactor = s.reactor :=
    reactor_setQuery s key (fun _ => rfl) fun _ => rfl
  cases fetched s key with
  | idle inactive done =>
    have nothing : stage (s, .fetch key :: tasks) = ⟨s.reactor, []⟩ := by
      cases query : s.queries[key]? with
      | none => simp [stage, duties, reactor, query]
      | some q =>
        have known : s.reactor (.query key) = some (.query q.spec, false) := by
          simp [reactor, query, inactive q query]
        rw [stage_fetch known]
        rfl
    rw [nothing, done]
    exact .rest rfl [] rfl (by simp) (by simp)
  | @refused q query active e invalid done =>
    have known : s.reactor (.query key) = some (.query q.spec, true) := by simp [reactor, query, active]
    obtain ⟨same, ⟨new, grown, silent⟩, calm⟩ :=
      quiet_deliver (s.startFetch key (q.started + 1)) key (q.started + 1) (.error e)
    have mark : s.marked (s.fetch key).1 = [.reacts (.query key)] := by
      have whole : (s.fetch key).1.history = (new ++ [.fetched key (q.started + 1)]) ++ s.history := by
        rw [done, grown, List.append_assoc]
        rfl
      have none : new.reverse.filterMap (Happening.mark? s) = [] :=
        List.filterMap_eq_nil_iff.mpr fun h member => silent h (List.mem_reverse.mp member) s
      rw [marked_of_history _ whole, List.reverse_append, List.filterMap_append, none]
      rfl
    rw [mark, done, stage_fetch known]
    refine .leave ?_ (same.trans (started q)) calm
    simp only [if_true, Reactor.reaction, invalid]
    exact .single .due
  | @started q query active call valid done =>
    have known : s.reactor (.query key) = some (.query q.spec, true) := by simp [reactor, query, active]
    have mark : s.marked (s.startFetch key (q.started + 1)) = [.reacts (.query key)] :=
      marked_of_history [.fetched key (q.started + 1)] rfl
    rw [stage_fetch known, done, mark]
    refine ⟨?_, by simp, by simp [Invites]⟩
    simp only [if_true, Reactor.reaction, valid, stage, duties, started q]
    exact .single .due

/-- Going on after a call makes at most the mark of a publish. -/
theorem attends_resume (posted : Posted s.reactor s.bus) (call : Call) (answer : Answer)
    (next : Continuation) :
    Attends ⟨s.reactor, []⟩ (s.marked (s.advance backend (.resume call answer next)).1)
      (s.advance backend (.resume call answer next)) := by
  simp only [advance]
  cases next with
  | conclude reading context => exact .rest rfl [_] rfl (by simp [Happening.mark?]) (by simp)
  | publish event reading context =>
    simp only [resume]
    cases reading.outcome answer with
    | error e => exact .rest rfl [_] rfl (by simp [Happening.mark?]) (by simp)
    | ok result =>
      have calm : (Task.conclude context result).isCalm = true := rfl
      have attends := attends_publish (s := s.record (.returned call answer)) posted event calm
      rwa [← marked_record rfl (List.suffix_cons ..)] at attends
  | addColumns table columns context =>
    simp only [resume]
    cases answer.toDone with
    | error e => exact .rest rfl [_] rfl (by simp [Happening.mark?]) (by simp)
    | ok _ =>
      have attends := attends_addColumns (s.record (.returned call answer)) table context columns
      have past := (performed_addColumns (s.record (.returned call answer)) table context
        columns).moves.history
      rwa [← marked_record rfl past] at attends
  | deliver key ticket =>
    obtain ⟨same, ⟨new, grown, silent⟩, calm⟩ :=
      quiet_deliver (s.record (.returned call answer)) key ticket answer.toRows
    refine .rest same (new ++ [.returned call answer]) ?_ ?_ calm
    · rw [List.append_assoc]
      exact grown
    · intro h member
      rcases List.mem_append.mp member with member | member
      · exact silent h member s
      · rw [List.mem_singleton.mp member]
        rfl

/-- Tasks that wait come behind those that a step leaves. -/
theorem Attends.append (attends : Attends a marks p) {tasks : List Task}
    (errands : ∀ task ∈ tasks, task.isErrand = false) (invites : ∀ task ∈ tasks, p.1.Invites task) :
    Attends a marks (p.1, p.2 ++ tasks) := by
  obtain ⟨s, new⟩ := p
  refine ⟨?_, fun task member => ?_, fun task member => ?_⟩
  · have same : stage (s, new ++ tasks) = stage (s, new) := by
      cases new with
      | cons task rest => rfl
      | nil =>
        cases tasks with
        | nil => rfl
        | cons task rest =>
          exact congrArg (Stage.mk s.reactor) (duties_errand s (errands task (List.mem_cons_self ..)))
    rw [same]
    exact attends.beats
  · cases new with
    | nil => exact errands task (List.mem_of_mem_tail member)
    | cons first rest =>
      rcases List.mem_append.mp member with member | member
      · exact attends.errands task member
      · exact errands task member
  · rcases List.mem_append.mp member with member | member
    · exact attends.invites task member
    · exact invites task member

/-- Who was invited is there still. -/
theorem Invites.later {due : List Mark} {a : Stage} {task : Task} (invites : s.Invites task)
    (beats : Beats ⟨s.reactor, due⟩ marks a) (same : a.reactor = s'.reactor) : s'.Invites task := by
  cases task with
  | round event observers =>
    intro observer member
    rcases invites observer member with listens | ⟨r, active, known, table⟩
    · exact .inl listens
    · obtain ⟨still, there⟩ := beats.keeps known
      exact .inr ⟨r, still, same ▸ there, table⟩
  | _ => trivial

variable (backend) in
/-- Who reopens the store asks for it. -/
theorem ne_reopen {context : Context} {command : Command}
    (kept : .asked .reopen ∉ (s.ask backend context command).1.history) : command ≠ .reopen := by
  rintro rfl
  cases asked_ask backend context s .reopen with
  | turn other turn => cases other
  | enlists enlists news idle =>
    have told : .asked .reopen ∈ (s.ask backend context .reopen).1.news :=
      news ▸ List.mem_cons_self ..
    exact kept (List.mem_of_mem_filter told)

variable (backend) in
/-- A step makes the marks that are due with its task. -/
theorem attends_advance (posted : Posted s.reactor s.bus) {task : Task} (invites : s.Invites task)
    (kept : .asked .reopen ∉ (s.advance backend task).1.history) (tasks : List Task) :
    Attends (stage (s, task :: tasks)) (task.marks ++ s.marked (s.advance backend task).1)
      (s.advance backend task) := by
  cases task with
  | script commands =>
    cases commands with
    | nil => exact .rest rfl [] rfl (by simp) (by simp)
    | cons command rest =>
      have asks := attends_ask backend (.nested command.word) posted (ne_reopen backend kept)
      exact asks.append (by simp) (by simp [Invites])
  | round event observers =>
    cases observers with
    | nil =>
      have quiet : s.marked s = [] := marked_of_history [] rfl
      simp only [advance, quiet]
      exact .leave (.single .ends) rfl (by simp)
    | cons observer rest =>
      have attends := attends_notify (invites observer (List.mem_cons_self ..))
      refine attends.append (by simp) fun task member => ?_
      rw [List.mem_singleton.mp member]
      have further : s.Invites (.round event rest) := fun other member =>
        invites other (List.mem_cons_of_mem _ member)
      exact further.later attends.beats rfl
  | fetch key => exact attends_fetch s key tasks
  | send call next =>
    have hook := alike_takeHook (s.record (.sent call)) call.kind .before
    have quiet := marked_of_history (s := s) [.sent call] hook.history
    cases next with
    | deliver key ticket =>
      simp only [advance]
      rw [quiet]
      exact .leave (.single .due) hook.reactor (by simp)
    | _ => exact .rest hook.reactor [.sent call] hook.history (by simp [Happening.mark?]) (by simp)
  | answer call next =>
    obtain ⟨storage, replies, answers⟩ := answered backend call s
    have hook := alike_takeHook (s.answer backend call).2 call.kind .after
    refine .rest (hook.reactor.trans ?_) [] (hook.history.trans ?_) (by simp) (by simp)
    · rw [answers]
      rfl
    · rw [answers]
      rfl
  | resume call answer next => exact attends_resume posted call answer next
  | keepQuery label key context =>
    have keeps : Unmoved s { s with queryHandles := s.queryHandles.insert label key } := ⟨rfl, rfl⟩
    simp only [advance, keepQuery]
    cases s.queryHandles.get? label with
    | none => exact .rest rfl [] rfl (by simp) (by simp)
    | some old => exact attends_disposeQuery keeps old (by simp)
  | keepWatch label key context =>
    have keeps : Unmoved s { s with watchHandles := s.watchHandles.insert label key } := ⟨rfl, rfl⟩
    simp only [advance, keepWatch]
    cases s.watchHandles.get? label with
    | none => exact .rest rfl [] rfl (by simp) (by simp)
    | some old => exact attends_disposeWatch keeps old (by simp)
  | conclude context outcome =>
    have ends : (s.advance backend (.conclude context outcome)).1.reactor = s.reactor ∧
        (s.advance backend (.conclude context outcome)).1.history =
          .finished context outcome :: s.history := by
      simp only [advance]
      split <;> exact ⟨rfl, rfl⟩
    exact .rest ends.1 [_] ends.2 (by simp [Happening.mark?]) (by simp)

/-! ## Runs -/

/-- The bus lists the holder of a registration at its table as long as it is active. -/
theorem Reachable.listed_iff (reachable : Reachable backend p) (once : .asked .reopen ∉ p.1.history)
    {observer : Observer} (holder : observer.listens = false) {subscription : Subscription}
    {active : Bool} (holds : p.1.held observer = some (subscription, active)) (table : String) :
    observer ∈ p.1.bus.observers table ↔ subscription.table = table ∧ active = true := by
  rw [reachable.mem_observers once holder table]
  constructor
  · rintro ⟨number, there⟩
    cases holds.symm.trans there
    exact ⟨rfl, rfl⟩
  · rintro ⟨rfl, rfl⟩
    exact ⟨subscription.number, holds⟩

/-- As long as the store is not reopened, the bus lists who is active. -/
theorem Reachable.posted (reachable : Reachable backend p) (once : .asked .reopen ∉ p.1.history) :
    Posted p.1.reactor p.1.bus where
  once table := Bus.Orderly.nodup_observers reachable.orderly table
  active observer r active known table := by
    cases observer with
    | listener key => cases known
    | query key =>
      obtain ⟨q, query, entry⟩ := Option.map_eq_some_iff.mp known
      obtain ⟨rfl, rfl⟩ := Prod.mk.inj entry
      have holds : p.1.held (.query key) = some (q.subscription, q.active) := by simp [held, query]
      rw [reachable.listed_iff once rfl holds, reachable.local_query query]
      rfl
    | watch key =>
      obtain ⟨w, watch, entry⟩ := Option.map_eq_some_iff.mp known
      obtain ⟨rfl, rfl⟩ := Prod.mk.inj entry
      have holds : p.1.held (.watch key) = some (w.subscription, w.active) := by simp [held, watch]
      rw [reachable.listed_iff once rfl holds, reachable.local_watch watch]
      rfl
  known table observer listed := by
    cases observer with
    | listener key => exact .inl rfl
    | query key =>
      obtain ⟨number, holds⟩ := (reachable.mem_observers once rfl table).mp listed
      obtain ⟨q, query, -⟩ := Option.map_eq_some_iff.mp holds
      exact .inr ⟨.query q.spec, q.active, by simp [reactor, query]⟩
    | watch key =>
      obtain ⟨number, holds⟩ := (reachable.mem_observers once rfl table).mp listed
      obtain ⟨w, watch, -⟩ := Option.map_eq_some_iff.mp holds
      exact .inr ⟨.watch w.table, w.active, by simp [reactor, watch]⟩

/-- A run plays its marks on the machine of reactions. -/
theorem Marks.beats (marks : Marks backend p trace p') (reachable : Reachable backend p)
    (once : .asked .reopen ∉ p'.1.history) (errands : ∀ task ∈ p.2.tail, task.isErrand = false)
    (invites : ∀ task ∈ p.2, p.1.Invites task) : Beats (stage p) trace (stage p') := by
  -- The tasks behind the first owe nothing and stay invited, so each step starts where the last one ended.
  induction marks with
  | done p => exact .nil
  | @advance s task rest marks p later ih =>
    have step : Step backend (s, task :: rest) _ := .advance s task rest
    have before : .asked .reopen ∉ (s.advance backend task).1.history := fun asked =>
      once (later.shows.later.history.subset asked)
    have attends := attends_advance backend
      (reachable.posted fun asked => before (step.history.subset asked))
      (invites task (List.mem_cons_self ..)) before rest
    have whole := attends.append errands fun other member =>
      (invites other (List.mem_cons_of_mem _ member)).later attends.beats rfl
    exact whole.beats.append (ih (reachable.step step) once whole.errands whole.invites)
  | @tick s tasks now marks p later ih =>
    exact ih (reachable.step (.tick s tasks now)) once errands invites
  | @give s command marks p later ih =>
    have step : Step backend (s, []) _ := .give s command
    have before : .asked .reopen ∉ (s.ask backend .top command).1.history := fun asked =>
      once (later.shows.later.history.subset asked)
    have attends := attends_ask backend .top
      (reachable.posted fun asked => before (step.history.subset asked)) (ne_reopen backend before)
    exact attends.beats.append (ih (reachable.step step) once attends.errands attends.invites)

/-- Every run has its marks. -/
theorem Later.exists_marks (later : Later backend p p') : ∃ trace, Marks backend p trace p' := by
  induction later using Relation.ReflTransGen.head_induction_on with
  | refl => exact ⟨[], .done _⟩
  | head step _ ih =>
    obtain ⟨trace, marks⟩ := ih
    cases step with
    | advance s task rest => exact ⟨_, .advance marks⟩
    | tick s tasks now => exact ⟨_, .tick marks⟩
    | give s command => exact ⟨_, .give marks⟩

/-- A run begins with nobody there. -/
theorem stage_start (storage : σ) (scripted : Bool) (now : Int64) :
    stage (.start storage scripted now, []) = ⟨fun _ => none, []⟩ := by
  refine congrArg (Stage.mk · []) (funext fun observer => ?_)
  cases observer <;> rfl

/-- In every run in which the store is not reopened, publishes nest, and each publish calls the observers
that its bus lists when it begins. These are, each once, the queries and watches of the table that were
opened before and are not disposed. Each query starts one fetch for its opening, one for each turn in a
publish of its table and one for each refresh while it is not disposed, and no other; each watch calls its
listener once for its opening and once for each such turn. A fetch sends the selection of the query's
specification and nothing else. At the end of a run, each has as many reactions as cues, and as many turns
as there are publishes that list it. -/
theorem one_reaction_per_cue {storage : σ} {scripted : Bool} {now : Int64}
    (marks : Marks backend (.start storage scripted now, []) trace p)
    (once : .asked .reopen ∉ p.1.history) :
    (∃ rest, Nested (trace.filterMap Mark.signal? ++ rest) ∧ (p.2 = [] → rest = [])) ∧
    (∀ before event bus after, trace = before ++ .signal (.begins event bus) :: after →
      (bus.observers event.table).Nodup ∧ ∀ observer r, .opens observer r ∈ before →
        (observer ∈ bus.observers event.table ↔
          r.table = event.table ∧ .disposes observer ∉ before)) ∧
    (∀ observer, ∃ rest,
      Attended observer (p.1.reactor observer) (marksOf observer trace ++ rest) ∧
      (∀ r active, p.1.reactor observer = some (r, active) → rest <:+ r.reaction observer) ∧
      (p.2 = [] → rest = [])) ∧
    (∀ observer call, .sends observer call ∈ trace → ∃ spec active,
      p.1.reactor observer = some (.query spec, active) ∧ Request.select spec = .ok call) ∧
    trace.filterMap Mark.reaction? = p.1.history.reverse.filterMap Happening.reaction? ∧
    (p.2 = [] → ∀ observer r active, p.1.reactor observer = some (r, active) →
      (marksOf observer trace).countP Mark.isReaction =
        1 + (whileActive (marksOf observer trace)).countP Mark.isCue ∧
      (trace.filterMap Mark.signal?).countP (Signal.turns observer) =
        (trace.filterMap Mark.signal?).countP (Signal.lists observer)) := by
  have beats : Beats ⟨fun _ => none, []⟩ trace (stage p) :=
    stage_start storage scripted now ▸ marks.beats (.start storage scripted now) once (by simp) (by simp)
  have tally : (stage p).Tally trace := by simpa using beats.tally Stage.tally_empty
  have owes : (stage p).Owes := beats.owes (.inl rfl)
  have ended (stopped : p.2 = []) : (stage p).due = [] := by simp [stage, stopped]
  have attended (observer : Observer) : Attended observer (p.1.reactor observer)
      (marksOf observer trace ++ marksOf observer (stage p).due) := by
    rw [← marksOf_append]
    exact tally observer
  obtain ⟨rest, unfolds, whole⟩ := marks.shows.finish
  refine ⟨⟨rest, unfolds.nested, whole⟩, ?_, ?_, ?_, ?_, ?_⟩
  · rintro before event bus after rfl
    exact beats.snapshot
  · exact fun observer => ⟨_, attended observer, fun r active known => owes.suffix known,
      fun stopped => by rw [ended stopped]; rfl⟩
  · intro observer call sent
    have own : .sends observer call ∈ marksOf observer trace ++ marksOf observer (stage p).due :=
      List.mem_append_left _ (by simpa [marksOf, Mark.about] using sent)
    exact (attended observer).sends own
  · rw [marks.reactions, since_of_history (List.append_nil _).symm]
  · intro stopped observer r active known
    have prompt := attended observer
    rw [known, ended stopped, show marksOf observer [] = [] from rfl, List.append_nil] at prompt
    have nested := unfolds.nested
    rw [whole stopped, List.append_nil] at nested
    exact ⟨(Prompt.count_reactions prompt).1, beats.count_turns nested observer⟩

variable (backend) in
/-- The marks of a number of steps. -/
def marking : Nat → Progress σ → List Mark
  | 0, _ => []
  | _, (_, []) => []
  | n + 1, (s, task :: rest) =>
    task.marks ++ s.marked (s.advance backend task).1 ++
      marking n ((s.advance backend task).1, (s.advance backend task).2 ++ rest)

variable (backend) in
/-- The marks of commands that are given one after the other. -/
def playing (bound : Nat) : Progress σ → List Command → List Mark
  | (s, []), command :: rest =>
    s.marked (s.ask backend .top command).1 ++ (marking backend bound (s.ask backend .top command) ++
      playing bound (steps backend bound (s.ask backend .top command)) rest)
  | _, _ => []

theorem Marks.append {more : List Mark} {p'' : Progress σ} (first : Marks backend p trace p')
    (later : Marks backend p' more p'') : Marks backend p (trace ++ more) p'' := by
  induction first with
  | done p => exact later
  | advance _ ih =>
    rw [List.append_assoc]
    exact .advance (ih later)
  | tick _ ih => exact .tick (ih later)
  | give _ ih =>
    rw [List.append_assoc]
    exact .give (ih later)

theorem marks_steps (n : Nat) (p : Progress σ) :
    Marks backend p (marking backend n p) (steps backend n p) := by
  induction n generalizing p with
  | zero => exact .done p
  | succ n ih =>
    obtain ⟨s, tasks⟩ := p
    cases tasks with
    | nil => exact .done _
    | cons task rest => exact .advance (ih _)

theorem marks_play (bound : Nat) (p : Progress σ) (commands : List Command) :
    Marks backend p (playing backend bound p commands) (play backend bound p commands) := by
  induction commands generalizing p with
  | nil =>
    obtain ⟨s, tasks⟩ := p
    cases tasks <;> exact .done _
  | cons command rest ih =>
    obtain ⟨s, tasks⟩ := p
    cases tasks with
    | nil => exact .give ((marks_steps bound _).append (ih _))
    | cons task waiting => exact .done _

/-- Two queries and a watch of a table. When the first query calls back for the second time, it publishes
on the table and disposes the other query, whose turn in the outer publish comes too late. A publish on
another table follows, and a refresh of each query. -/
def lively : List Command := [
  .openQuery "t" [] (.value ⟨[]⟩) (.value ⟨[]⟩) "q" [[], [.publish "t" .delete none, .disposeQuery "r"]],
  .openWatch "t" "w" [],
  .openQuery "t" [] (.value ⟨[]⟩) (.value ⟨[]⟩) "r" [],
  .publish "t" .insert none,
  .publish "u" .insert none,
  .refresh "q",
  .refresh "r"]

/-- The session after that. -/
def lived : Progress Unit := play .mute 60 (.start () true 0, []) lively

/-- The marks of that. -/
def life : List Mark := playing .mute 60 (.start () true 0, []) lively

theorem lively_reactions :
    (Marks .mute (.start () true 0, []) life lived ∧ .asked .reopen ∉ lived.1.history ∧
      lived.2 = [] ∧ life.filterMap Mark.reaction? = [.query 0, .watch 0, .query 1, .query 0, .query 0,
        .watch 0, .query 1, .watch 0, .query 0]) ∧
    (∃ rest, Nested (life.filterMap Mark.signal? ++ rest) ∧ (lived.2 = [] → rest = [])) ∧
    (∀ before event bus after, life = before ++ .signal (.begins event bus) :: after →
      (bus.observers event.table).Nodup ∧ ∀ observer r, .opens observer r ∈ before →
        (observer ∈ bus.observers event.table ↔
          r.table = event.table ∧ .disposes observer ∉ before)) ∧
    (∀ observer, ∃ rest,
      Attended observer (lived.1.reactor observer) (marksOf observer life ++ rest) ∧
      (∀ r active, lived.1.reactor observer = some (r, active) → rest <:+ r.reaction observer) ∧
      (lived.2 = [] → rest = [])) ∧
    (∀ observer call, .sends observer call ∈ life → ∃ spec active,
      lived.1.reactor observer = some (.query spec, active) ∧ Request.select spec = .ok call) ∧
    life.filterMap Mark.reaction? = lived.1.history.reverse.filterMap Happening.reaction? ∧
    (lived.2 = [] → ∀ observer r active, lived.1.reactor observer = some (r, active) →
      (marksOf observer life).countP Mark.isReaction =
        1 + (whileActive (marksOf observer life)).countP Mark.isCue ∧
      (life.filterMap Mark.signal?).countP (Signal.turns observer) =
        (life.filterMap Mark.signal?).countP (Signal.lists observer)) := by
  have marks : Marks .mute (.start () true 0, []) life lived := marks_play ..
  have once : .asked .reopen ∉ lived.1.history := by
    have words : (lived.1.history.filterMap Happening.asked?).map Command.word = ["refresh", "refresh",
        "publish", "dispose_query", "publish", "publish", "open_query", "open_watch", "open_query"] := rfl
    intro asked
    have begun : .reopen ∈ lived.1.history.filterMap Happening.asked? :=
      List.mem_filterMap.mpr ⟨_, asked, rfl⟩
    have word := List.mem_map_of_mem (f := Command.word) begun
    rw [words] at word
    exact absurd word (by decide)
  exact ⟨⟨marks, once, rfl, rfl⟩, one_reaction_per_cue marks once⟩

end Session

end LiveTable
