import LiveTable.Session.Task

/-!
# Why every run ends

The weight of a session is the number of commands and calls that its plans and hooks still hold; a
task that holds commands has a weight as well. Performing a command lets the total weight fall. Any
other task leaves it as it is at most, and sets off smaller tasks only.
-/

namespace LiveTable

/-- The weight of what follows a call: one for an event that is still to be published. -/
def Continuation.weight : Continuation → Nat
  | .publish .. => 1
  | _ => 0

/-- The weight of the commands that a task holds. -/
def Task.weight : Task → Nat
  | .script commands => scriptWeight commands
  | .send _ next => next.weight
  | .answer _ next => next.weight
  | .resume _ _ next => next.weight
  | _ => 0

/-- A size of what follows a call: the calls that are left, with the steps of each. -/
def Continuation.size : Continuation → Nat
  | .conclude .. => 2
  | .publish .. => 1
  | .addColumns _ columns _ => 2 + 5 * columns.length
  | .deliver .. => 2

/-- A size that falls when a task without commands is done. -/
def Task.size : Task → Nat
  | .script _ => 1
  | .round _ observers => 1 + 8 * observers.length
  | .fetch _ => 7
  | .send _ next => 4 + next.size
  | .answer _ next => 2 + next.size
  | .resume _ _ next => next.size
  | .keepQuery .. => 2
  | .keepWatch .. => 2
  | .conclude .. => 1

/-- The weight of hooks, each with one for its run. -/
def hooksWeight : List Hook → Nat
  | [] => 0
  | hook :: rest => 1 + scriptWeight hook.script + hooksWeight rest

theorem hooksWeight_append (a b : List Hook) :
    hooksWeight (a ++ b) = hooksWeight a + hooksWeight b := by
  induction a with
  | nil => simp [hooksWeight]
  | cons hook rest ih => simp [hooksWeight, ih]; omega

theorem hooksWeight_take (kind : CallKind) (moment : Moment) (hooks : List Hook) :
    scriptWeight (Hook.take kind moment hooks).1 + hooksWeight (Hook.take kind moment hooks).2
      ≤ hooksWeight hooks := by
  induction hooks with
  | nil => simp [Hook.take, scriptWeight, hooksWeight]
  | cons hook rest ih =>
    unfold Hook.take
    split
    · simp [hooksWeight]
    · simp only [hooksWeight]
      omega

/-- The sum of a measure over a list. -/
def total {α : Type} (f : α → Nat) : List α → Nat
  | [] => 0
  | a :: rest => f a + total f rest

@[simp] theorem total_append {α : Type} (f : α → Nat) (a b : List α) :
    total f (a ++ b) = total f a + total f b := by
  induction a with
  | nil => simp [total]
  | cons x rest ih => simp [total, ih]; omega

/-- The weight of tasks. -/
def taskWeight (tasks : List Task) : Nat := total Task.weight tasks

/-- The size of tasks. -/
def taskSize (tasks : List Task) : Nat := total Task.size tasks

@[simp] theorem taskWeight_nil : taskWeight [] = 0 := rfl

@[simp] theorem taskWeight_cons (t : Task) (l : List Task) :
    taskWeight (t :: l) = t.weight + taskWeight l := rfl

@[simp] theorem taskWeight_append (a b : List Task) :
    taskWeight (a ++ b) = taskWeight a + taskWeight b := by simp [taskWeight]

@[simp] theorem taskSize_nil : taskSize [] = 0 := rfl

@[simp] theorem taskSize_cons (t : Task) (l : List Task) :
    taskSize (t :: l) = t.size + taskSize l := rfl

@[simp] theorem taskSize_append (a b : List Task) :
    taskSize (a ++ b) = taskSize a + taskSize b := by simp [taskSize]

/-- The sum of a measure over a list after one entry was replaced. -/
theorem total_set {α : Type} (f : α → Nat) {l : List α} {i : Nat} {old : α} (new : α)
    (h : l[i]? = some old) : total f (l.set i new) + f old = total f l + f new := by
  induction l generalizing i with
  | nil => simp at h
  | cons x rest ih =>
    cases i with
    | zero =>
      simp at h
      subst h
      simp [total]
      omega
    | succ i =>
      have := ih (i := i) (by simpa using h)
      simp only [List.set_cons_succ, total]
      omega

/-- Changing an entry by a function that keeps a measure keeps the sum. -/
theorem total_modify {α : Type} (f : α → Nat) (g : α → α) (keeps : ∀ a, f (g a) = f a)
    (l : List α) (i : Nat) : total f (l.modify i g) = total f l := by
  induction l generalizing i with
  | nil => cases i <;> simp [List.modify]
  | cons x rest ih =>
    cases i with
    | zero => simp [total, keeps]
    | succ i => simp [total, ih]

namespace Session

variable {σ : Type}

/-- The weight of all plans and hooks of a session. -/
def weight (s : Session σ) : Nat :=
  hooksWeight s.hooks + total (fun l : Listener => planWeight l.plan) s.listeners
    + total (fun q : Query => planWeight q.plan) s.queries
    + total (fun w : Watch => planWeight w.plan) s.watches

@[simp] theorem weight_record (s : Session σ) (h : Happening) : (s.record h).weight = s.weight :=
  rfl

/-- A change that keeps the plan of each query keeps the weight. -/
theorem weight_setQuery (s : Session σ) (key : Nat) (f : Query → Query)
    (keeps : ∀ q, (f q).plan = q.plan) : (s.setQuery key f).weight = s.weight := by
  simp [weight, setQuery, total_modify (fun q : Query => planWeight q.plan) f (by simp [keeps])]

/-- A change that keeps the plan of each watch keeps the weight. -/
theorem weight_setWatch (s : Session σ) (key : Nat) (f : Watch → Watch)
    (keeps : ∀ w, (f w).plan = w.plan) : (s.setWatch key f).weight = s.weight := by
  simp [weight, setWatch, total_modify (fun w : Watch => planWeight w.plan) f (by simp [keeps])]

@[simp] theorem weight_answer (backend : Backend σ) (call : Call) (s : Session σ) :
    (s.answer backend call).2.weight = s.weight := by
  unfold answer
  simp only
  split <;> rfl

theorem weight_takeHook (s : Session σ) (kind : CallKind) (moment : Moment) :
    scriptWeight (s.takeHook kind moment).1 + (s.takeHook kind moment).2.weight ≤ s.weight := by
  unfold takeHook
  split
  · have := hooksWeight_take kind moment s.hooks
    simp [weight]
    omega
  · simp [scriptWeight]

theorem weight_listenerScript (s : Session σ) (key : Nat) :
    scriptWeight (s.listenerScript key).1 + (s.listenerScript key).2.weight ≤ s.weight := by
  unfold listenerScript
  cases h : s.listeners[key]? with
  | none => simp [scriptWeight]
  | some l =>
    have next := planWeight_next l.plan
    have sum := total_set (fun l : Listener => planWeight l.plan)
      { l with plan := l.plan.next.2 } h
    simp only [weight] at *
    omega

theorem weight_queryScript (s : Session σ) (key : Nat) :
    scriptWeight (s.queryScript key).1 + (s.queryScript key).2.weight ≤ s.weight := by
  unfold queryScript
  cases h : s.queries[key]? with
  | none => simp [scriptWeight]
  | some q =>
    have next := planWeight_next q.plan
    have sum := total_set (fun q : Query => planWeight q.plan)
      { q with plan := q.plan.next.2 } h
    simp only [weight] at *
    omega

theorem weight_watchScript (s : Session σ) (key : Nat) :
    scriptWeight (s.watchScript key).1 + (s.watchScript key).2.weight ≤ s.weight := by
  unfold watchScript
  cases h : s.watches[key]? with
  | none => simp [scriptWeight]
  | some w =>
    have next := planWeight_next w.plan
    have sum := total_set (fun w : Watch => planWeight w.plan)
      { w with plan := w.plan.next.2 } h
    simp only [weight] at *
    omega

@[simp] theorem weight_startFetch (s : Session σ) (key ticket : Nat) :
    (s.startFetch key ticket).weight = s.weight := weight_setQuery s key _ fun _ => rfl

@[simp] theorem weight_takeResult (s : Session σ) (key ticket : Nat) (label : String)
    (result : Except Error (List Row)) : (s.takeResult key ticket label result).weight = s.weight :=
  weight_setQuery s key _ fun _ => by cases result <;> rfl

@[simp] theorem weight_disposeQuery (s : Session σ) (key : Nat) :
    (s.disposeQuery key).weight = s.weight := by
  unfold disposeQuery
  cases s.queries[key]? with
  | none => rfl
  | some q =>
    cases hq : q.active
    · simp [hq]
    · simp only [hq, if_true, weight_record]
      exact weight_setQuery s key _ fun _ => rfl

@[simp] theorem weight_disposeWatch (s : Session σ) (key : Nat) :
    (s.disposeWatch key).weight = s.weight := by
  unfold disposeWatch
  cases s.watches[key]? with
  | none => rfl
  | some w =>
    cases hw : w.active
    · simp [hw]
    · simp only [hw, if_true, weight_record]
      exact weight_setWatch s key _ fun _ => rfl

@[simp] theorem weight_keepQuery (s : Session σ) (label : String) (key : Nat) :
    (s.keepQuery label key).weight = s.weight := by
  unfold keepQuery
  cases s.queryHandles.get? label with
  | none => rfl
  | some old => exact weight_disposeQuery _ old

@[simp] theorem weight_keepWatch (s : Session σ) (label : String) (key : Nat) :
    (s.keepWatch label key).weight = s.weight := by
  unfold keepWatch
  cases s.watchHandles.get? label with
  | none => rfl
  | some old => exact weight_disposeWatch _ old

@[simp] theorem weight_dropQuery (s : Session σ) (label : String) (key : Nat) :
    (s.dropQuery label key).weight = s.weight := weight_disposeQuery _ key

@[simp] theorem weight_dropWatch (s : Session σ) (label : String) (key : Nat) :
    (s.dropWatch label key).weight = s.weight := weight_disposeWatch _ key

theorem weight_foldl_disposeQuery (keys : List Nat) (s : Session σ) :
    (keys.foldl disposeQuery s).weight = s.weight := by
  induction keys generalizing s with
  | nil => rfl
  | cons key rest ih => simp [ih]

theorem weight_foldl_disposeWatch (keys : List Nat) (s : Session σ) :
    (keys.foldl disposeWatch s).weight = s.weight := by
  induction keys generalizing s with
  | nil => rfl
  | cons key rest ih => simp [ih]

@[simp] theorem weight_dropAll (s : Session σ) : s.dropAll.weight = s.weight :=
  (weight_foldl_disposeWatch _ _).trans (weight_foldl_disposeQuery _ _)

theorem weight_addListener (s : Session σ) (table label : String) (plan : Plan) :
    (s.addListener table label plan).weight = s.weight + planWeight plan := by
  simp [addListener, weight, total]
  omega

theorem weight_addQuery (s : Session σ) (spec : QuerySpec) (label : String) (plan : Plan) :
    (s.addQuery spec label plan).2.weight = s.weight + planWeight plan := by
  simp [addQuery, weight, total]
  omega

theorem weight_addWatch (s : Session σ) (table label : String) (plan : Plan) :
    (s.addWatch table label plan).2.weight = s.weight + planWeight plan := by
  simp [addWatch, weight, total]
  omega

@[simp] theorem weight_publish (s : Session σ) (event : ChangeEvent) :
    (s.publish event).1.weight = s.weight := rfl

@[simp] theorem taskWeight_publish (s : Session σ) (event : ChangeEvent) :
    (s.publish event).2.weight = 0 := rfl

/-! ## Performing a command -/

/-- What is left weighs no more than what there was. -/
def Light (bound : Nat) (p : Progress σ) : Prop := p.1.weight + taskWeight p.2 ≤ bound

theorem light_refuse (s : Session σ) (context : Context) (f : Failure) :
    Light s.weight (s.refuse context f) := by simp [Light, refuse, Task.weight]

theorem light_ended (s : Session σ) (context : Context) (outcome : Outcome) :
    Light s.weight (s.ended context outcome) := by simp [Light, ended, Task.weight]

theorem light_withArgument {α : Type} (s : Session σ) (context : Context)
    (argument : Except Failure α) (next : α → Progress σ) {extra : Nat}
    (h : ∀ a, Light (s.weight + extra) (next a)) :
    Light (s.weight + extra) (s.withArgument context argument next) := by
  cases argument with
  | error f => exact Nat.le_trans (light_refuse s context f) (Nat.le_add_right _ _)
  | ok a => exact h a

theorem light_request (s : Session σ) (context : Context) (call : Except Error Call)
    (next : Continuation) :
    Light (s.weight + next.weight) (s.request context call next) := by
  cases call with
  | error e => simp [Light, request, refuse, Task.weight]
  | ok c => simp [Light, request, Task.weight]

theorem light_addColumns (s : Session σ) (table : String) (context : Context)
    (columns : List (String × ColumnDef)) :
    Light s.weight (s.addColumns table context columns) := by
  cases columns with
  | nil => simp [addColumns, Light, Task.weight]
  | cons column rest => exact light_request ..

theorem light_withHandle {α : Type} (s : Session σ) (context : Context) (handle : Option α)
    (next : α → Progress σ) (h : ∀ a, Light s.weight (next a)) :
    Light s.weight (s.withHandle context handle next) := by
  cases handle with
  | none => exact light_refuse s context _
  | some a => exact h a

/-- Performing a command uses up its weight. -/
theorem light_perform (backend : Backend σ) (context : Context) (s : Session σ) (c : Command) :
    Light (s.weight + (c.weight - 1)) (s.perform backend context c) := by
  have weaken : ∀ {p : Progress σ}, Light s.weight p → Light (s.weight + (c.weight - 1)) p :=
    fun h => Nat.le_trans h (Nat.le_add_right _ _)
  cases c with
  | createTable table pairs => exact light_withArgument _ _ _ _ fun _ => light_request ..
  | addColumns table pairs =>
    refine light_withArgument _ _ _ _ fun spec => ?_
    cases checkName table with
    | error e => exact light_refuse ..
    | ok _ => exact light_addColumns ..
  | createIndex table column => exact weaken (light_request ..)
  | dropTable table =>
    simp only [perform]
    cases Request.dropTable table with
    | error e => exact weaken (light_refuse ..)
    | ok call => exact weaken (by simp [Light, publish, Task.weight, Continuation.weight])
  | tables => exact weaken (by simp [perform, Light, Task.weight, Continuation.weight])
  | schema table => exact weaken (light_request ..)
  | validateSchema table columns =>
    refine weaken ?_
    simp only [perform]
    by_cases empty : columns.isEmpty
    · rw [if_pos empty]
      exact light_refuse ..
    · rw [if_neg empty]
      exact light_request ..
  | insert table row => exact light_withArgument _ _ _ _ fun _ => light_request ..
  | update table filter row =>
    exact light_withArgument _ _ _ _ fun _ => light_withArgument _ _ _ _ fun _ => light_request ..
  | delete table filter => exact light_withArgument _ _ _ _ fun _ => light_request ..
  | select table columns filter order =>
    exact light_withArgument _ _ _ _ fun _ => light_request ..
  | raw kind text params => exact weaken (by simp [perform, Light, Task.weight, Continuation.weight])
  | reply replies => exact weaken (light_ended { s with replies := s.replies ++ replies } ..)
  | hook kind moment script =>
    simp [perform, ended, Light, Task.weight, Command.weight, weight, hooksWeight_append,
      hooksWeight]
    omega
  | reopen =>
    refine weaken ?_
    simp only [perform]
    cases backend.reopen s.dropAll.storage with
    | error e =>
      have := light_refuse s.dropAll context (.opening e)
      rwa [weight_dropAll] at this
    | ok storage =>
      have := light_ended { s.dropAll with storage } context .done
      have same : weight { s.dropAll with storage } = s.weight := weight_dropAll s
      rwa [same] at this
  | subscribe table label plan =>
    simp [perform, ended, Light, Task.weight, Command.weight, weight_addListener]
  | unsubscribe label =>
    exact weaken (light_withHandle _ _ _ _ fun sub => light_ended (s.dropListener label sub) ..)
  | publish table kind row =>
    exact light_withArgument _ _ _ _ fun _ => by
      simp [Light, publish, Task.weight, Command.weight]
  | count table => exact weaken (light_ended ..)
  | describeBus => exact weaken (light_ended ..)
  | openQuery table columns filter order label plan =>
    simp only [perform]
    cases readSpec table columns filter order with
    | error f => exact weaken (light_refuse ..)
    | ok spec =>
      simp [withArgument, Light, Task.weight, Command.weight, weight_addQuery]
  | refresh label =>
    exact weaken (light_withHandle _ _ _ _ fun _ => by simp [Light, Task.weight])
  | disposeQuery label =>
    exact weaken (light_withHandle _ _ _ _ fun key => by simp [ended, Light, Task.weight])
  | dropQuery label =>
    exact weaken (light_withHandle _ _ _ _ fun key => by simp [ended, Light, Task.weight])
  | queryState label => exact weaken (light_withHandle _ _ _ _ fun _ => light_ended ..)
  | openWatch table label plan =>
    have opened := weight_addWatch s table label plan
    have script := weight_watchScript
      ((s.addWatch table label plan).2.record (.notified (s.addWatch table label plan).1 label))
      (s.addWatch table label plan).1
    simp [perform, Light, Task.weight, Command.weight] at *
    omega
  | watchState label => exact weaken (light_withHandle _ _ _ _ fun _ => light_ended ..)
  | disposeWatch label =>
    exact weaken (light_withHandle _ _ _ _ fun key => by simp [ended, Light, Task.weight])
  | dropWatch label =>
    exact weaken (light_withHandle _ _ _ _ fun key => by simp [ended, Light, Task.weight])
  | unknown word => exact weaken (light_refuse ..)

end Session

end LiveTable
