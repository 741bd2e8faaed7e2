import LiveTable.Proofs.Discipline
import LiveTable.Proofs.Turns

/-!
# Snapshots

A publish calls the observers that are registered for the table of its event when it begins. Observers
may register others, take registrations back and publish while they are called, to any depth. What can be
seen of that in a run is a list of signals: an event begins to be published, an observer is called with
it, all have been called. The signals of every run nest like brackets, and in each publish the observers
called are those of the bus at its beginning, in order, whatever becomes of the bus.
-/

namespace LiveTable

/-- What can be seen of the publishing of events. -/
inductive Signal
  /-- An event begins to be published; the bus is as it is then. -/
  | begins (event : ChangeEvent) (bus : Bus Observer)
  | calls (event : ChangeEvent) (observer : Observer)
  /-- All observers of an event have been called. -/
  | ends (event : ChangeEvent)

mutual

/-- Whole publishes, one after the other. Each of them calls the observers that are registered for the
table of its event when it begins. -/
inductive Nested : List Signal → Prop
  | nil : Nested []
  | publish {event : ChangeEvent} {bus : Bus Observer} {first later : List Signal}
    (round : Round event (bus.observers event.table) first) (rest : Nested later) :
    Nested (.begins event bus :: (first ++ later))

/-- The rest of a publish that is to call some observers: each of them once, in order and with the event.
What is published in a call ends before the next observer is called. -/
inductive Round : ChangeEvent → List Observer → List Signal → Prop
  | ends (event : ChangeEvent) : Round event [] [.ends event]
  | call {event : ChangeEvent} {observer : Observer} {observers : List Observer}
    {inner later : List Signal} (within : Nested inner) (rest : Round event observers later) :
    Round event (observer :: observers) (.calls event observer :: (inner ++ later))

end

/-- The signals of tasks that are done one after the other: of a round, those of the rest of its publish,
and of any other task whole publishes. -/
inductive Unfolds : List Task → List Signal → Prop
  | done {signals : List Signal} (nested : Nested signals) : Unfolds [] signals
  | round {event : ChangeEvent} {observers : List Observer} {tasks : List Task}
    {first later : List Signal} (calls : Round event observers first) (rest : Unfolds tasks later) :
    Unfolds (.round event observers :: tasks) (first ++ later)
  | other {task : Task} {tasks : List Task} {first later : List Signal} (idle : task.isRound = false)
    (nested : Nested first) (rest : Unfolds tasks later) : Unfolds (task :: tasks) (first ++ later)

/-- The signal of a task when it is advanced. -/
def Task.signals : Task → List Signal
  | .round event [] => [.ends event]
  | .round event (observer :: _) => [.calls event observer]
  | _ => []

/-- The beginning of a publish, on a bus. -/
def Happening.begins? (bus : Bus Observer) : Happening → Option Signal
  | .published event _ => some (.begins event bus)
  | _ => none

/-- A subscriber that was called, with the event. -/
def Happening.heard? : Happening → Option (Nat × ChangeEvent)
  | .observed key _ event => some (key, event)
  | _ => none

/-- A subscriber that is called, with the event. -/
def Signal.heard? : Signal → Option (Nat × ChangeEvent)
  | .calls event (.listener key) => some (key, event)
  | _ => none

theorem Task.signals_idle {task : Task} (idle : task.isRound = false) : task.signals = [] := by
  cases task <;> first | rfl | cases idle

theorem Nested.append {signals more : List Signal} :
    Nested signals → Nested more → Nested (signals ++ more)
  | .nil, nested => nested
  | .publish round rest, nested => by
    rw [List.cons_append, List.append_assoc]
    exact .publish round (rest.append nested)

/-- Tasks that are no rounds show whole publishes. -/
theorem Unfolds.split {tasks rest : List Task} {signals : List Signal}
    (unfolds : Unfolds (tasks ++ rest) signals) (idle : ∀ task ∈ tasks, task.isRound = false) :
    ∃ first later, signals = first ++ later ∧ Nested first ∧ Unfolds rest later := by
  induction tasks generalizing signals with
  | nil => exact ⟨[], signals, rfl, .nil, unfolds⟩
  | cons task tasks ih =>
    cases unfolds with
    | round calls unfolds => exact absurd (idle _ (List.mem_cons_self ..)) (by simp)
    | other _ nested unfolds =>
      obtain ⟨first, later, rfl, more, rest⟩ :=
        ih unfolds fun other member => idle other (List.mem_cons_of_mem _ member)
      exact ⟨_, later, (List.append_assoc ..).symm, nested.append more, rest⟩

theorem Unfolds.nested {signals : List Signal} (unfolds : Unfolds [] signals) : Nested signals := by
  cases unfolds with
  | done nested => exact nested

namespace Session

variable {σ : Type} {backend : Backend σ} {s s' : Session σ} {p p' p'' : Progress σ}
  {signals more : List Signal}

/-- The publishes that began between two sessions, on the bus of the first one. -/
def begun (s s' : Session σ) : List Signal := (since s s').filterMap (Happening.begins? s.bus)

/-- A run, with its signals. -/
inductive Shows (backend : Backend σ) : Progress σ → List Signal → Progress σ → Prop
  | done (p : Progress σ) : Shows backend p [] p
  | advance {s : Session σ} {task : Task} {rest : List Task} {signals : List Signal}
    {p : Progress σ}
    (later : Shows backend ((s.advance backend task).1, (s.advance backend task).2 ++ rest) signals p) :
    Shows backend (s, task :: rest)
      (task.signals ++ s.begun (s.advance backend task).1 ++ signals) p
  | tick {s : Session σ} {tasks : List Task} {now : Int64} {signals : List Signal} {p : Progress σ}
    (later : Shows backend ({ s with now }, tasks) signals p) : Shows backend (s, tasks) signals p
  | give {s : Session σ} {command : Command} {signals : List Signal} {p : Progress σ}
    (later : Shows backend (s.ask backend .top command) signals p) :
    Shows backend (s, []) (s.begun (s.ask backend .top command).1 ++ signals) p

theorem Shows.later (shows : Shows backend p signals p') : Later backend p p' := by
  induction shows with
  | done p => exact .refl
  | advance _ ih => exact .head (.advance _ _ _) ih
  | tick _ ih => exact .head (.tick _ _ _) ih
  | give _ ih => exact .head (.give _ _) ih

theorem Shows.append (shows : Shows backend p signals p') (further : Shows backend p' more p'') :
    Shows backend p (signals ++ more) p'' := by
  induction shows with
  | done p => exact further
  | advance _ ih =>
    rw [List.append_assoc]
    exact .advance (ih further)
  | tick _ ih => exact .tick (ih further)
  | give _ ih =>
    rw [List.append_assoc]
    exact .give (ih further)

/-- Every run has its signals. -/
theorem Later.shows (later : Later backend p p') : ∃ signals, Shows backend p signals p' := by
  induction later using Relation.ReflTransGen.head_induction_on with
  | refl => exact ⟨[], .done _⟩
  | head step _ ih =>
    obtain ⟨signals, shows⟩ := ih
    cases step with
    | advance s task rest => exact ⟨_, .advance shows⟩
    | tick s tasks now => exact ⟨_, .tick shows⟩
    | give s command => exact ⟨_, .give shows⟩

variable (backend) in
/-- The signals of a number of steps. -/
def showing : Nat → Progress σ → List Signal
  | 0, _ => []
  | _, (_, []) => []
  | n + 1, (s, task :: rest) =>
    task.signals ++ s.begun (s.advance backend task).1 ++
      showing n ((s.advance backend task).1, (s.advance backend task).2 ++ rest)

variable (backend) in
theorem shows_steps (n : Nat) (p : Progress σ) :
    Shows backend p (showing backend n p) (steps backend n p) := by
  induction n generalizing p with
  | zero => exact .done p
  | succ n ih =>
    obtain ⟨s, tasks⟩ := p
    cases tasks with
    | nil => exact .done _
    | cons task rest => exact .advance (ih _)

/-! ## What a step shows -/

/-- What a step adds to the news is all that matters of what it adds to the history. -/
theorem filterMap_since {β : Type} {f : Happening → Option β}
    (quiet : ∀ h, h.isNews = false → f h = none) (past : s.history <:+ s'.history)
    (new : List Happening) (news : s'.news = new ++ s.news) :
    (since s s').filterMap f = new.reverse.filterMap f := by
  obtain ⟨added, grown⟩ := past
  have told : added.filter Happening.isNews = new := by
    rw [Session.news, ← grown, List.filter_append] at news
    exact List.append_cancel_right news
  have only : added.reverse.filterMap f = (added.reverse.filter Happening.isNews).filterMap f := by
    rw [List.filterMap_filter]
    congr 1
    funext h
    cases told : h.isNews with
    | false => simpa using quiet h told
    | true => simp
  rw [since_of_history grown.symm, only, List.filter_reverse, told]

theorem begun_of_news (past : s.history <:+ s'.history) (new : List Happening)
    (news : s'.news = new ++ s.news) :
    s.begun s' = new.reverse.filterMap (Happening.begins? s.bus) :=
  filterMap_since (fun h quiet => by cases h <;> first | rfl | cases quiet) past new news

/-- What is published at once in a turn is published before the tasks are done that wait. -/
theorem Turn.nested (commands : List Happening) (turn : Turn s' p) (bus : s'.bus = s.bus)
    (asked : s'.news = commands ++ s.news)
    (silent : commands.filterMap (Happening.begins? s.bus) = [])
    (past : s.history <:+ p.1.history) {rest : List Task} (unfolds : Unfolds (p.2 ++ rest) signals) :
    ∃ first later, s.begun p.1 ++ signals = first ++ later ∧ Nested first ∧ Unfolds rest later := by
  have silent : commands.reverse.filterMap (Happening.begins? s.bus) = [] := by
    rw [List.filterMap_reverse, silent, List.reverse_nil]
  have quiet (news : p.1.news = s'.news) (idle : ∀ task ∈ p.2, task.isRound = false) :
      ∃ first later, s.begun p.1 ++ signals = first ++ later ∧ Nested first ∧ Unfolds rest later := by
    rw [begun_of_news past _ (news.trans asked), silent]
    exact unfolds.split idle
  cases turn with
  | still still idle => exact quiet still.news idle
  | shift shift news idle => exact quiet news idle
  | publish event scene news tasks idle =>
    rw [tasks, List.cons_append] at unfolds
    rw [asked, ← List.cons_append] at news
    rw [begun_of_news past _ news, List.reverse_cons, List.filterMap_append, silent]
    cases unfolds with
    | other idle => cases idle
    | round calls unfolds =>
      obtain ⟨first, later, rfl, nested, rest⟩ := unfolds.split idle
      refine ⟨_, later, ?_, .publish (bus ▸ calls) nested, rest⟩
      simp [Happening.begins?, bus]

theorem Asked.nested {command : Command} (asked : Asked s command p)
    (past : s.history <:+ p.1.history) {rest : List Task} (unfolds : Unfolds (p.2 ++ rest) signals) :
    ∃ first later, s.begun p.1 ++ signals = first ++ later ∧ Nested first ∧ Unfolds rest later := by
  cases asked with
  | turn other turn =>
    exact turn.nested (s := s) [.asked command] rfl (news_record s rfl) rfl past unfolds
  | enlists enlists news idle =>
    rw [begun_of_news past [.asked command] news]
    exact unfolds.split idle

/-- The signals of a step, and those of the tasks that it leaves, are those of its task. -/
theorem unfolds_advance {task : Task} {rest : List Task}
    (unfolds : Unfolds ((s.advance backend task).2 ++ rest) signals) :
    Unfolds (task :: rest) (task.signals ++ s.begun (s.advance backend task).1 ++ signals) := by
  have past : s.history <:+ (s.advance backend task).1.history := (advanced backend s task).history
  cases task with
  | script commands =>
    have published : ∃ first later, s.begun (s.advance backend (.script commands)).1 ++ signals =
        first ++ later ∧ Nested first ∧ Unfolds rest later := by
      cases commands with
      | nil => exact (turn_advance backend s rfl).nested [] rfl rfl rfl past unfolds
      | cons command commands =>
        -- The publishes of the command, and of the tasks that it leaves, come before those of the others.
        rw [advance, List.append_assoc] at unfolds
        obtain ⟨first, later, same, nested, unfolds⟩ :=
          (asked_ask backend (.nested command.word) s command).nested past unfolds
        obtain ⟨more, later, rfl, nested', unfolds⟩ := unfolds.split (by simp)
        exact ⟨_, later, same.trans (List.append_assoc ..).symm, nested.append nested', unfolds⟩
    obtain ⟨first, later, same, nested, unfolds⟩ := published
    rw [Task.signals_idle rfl, List.nil_append, same]
    exact .other rfl nested unfolds
  | round event observers =>
    cases observers with
    | nil =>
      have quiet : s.begun (s.advance backend (.round event [])).1 = [] :=
        begun_of_news past [] rfl
      rw [quiet]
      exact .round (.ends event) unfolds
    | cons observer observers =>
      obtain ⟨-, idle, told⟩ := still_notify event s observer
      have quiet : s.begun (s.advance backend (.round event (observer :: observers))).1 = [] := by
        cases observer with
        | listener key =>
          obtain ⟨label, news⟩ := told
          exact begun_of_news past [.observed key label event] news
        | query key => exact begun_of_news past [] told
        | watch key => exact begun_of_news past [] told
      -- What the observer sets off is done before the round goes on, so it nests in this call.
      rw [advance, List.append_assoc] at unfolds
      obtain ⟨inner, later, rfl, nested, unfolds⟩ := unfolds.split idle
      cases unfolds with
      | other idle => cases idle
      | round calls further =>
        rw [quiet, Task.signals, List.append_nil, ← List.append_assoc, ← List.append_assoc]
        exact .round (.call nested calls) further
  | _ =>
    obtain ⟨first, later, same, nested, unfolds⟩ :=
      (turn_advance backend s rfl).nested [] rfl rfl rfl past unfolds
    rw [Task.signals_idle rfl, List.nil_append, same]
    exact .other rfl nested unfolds

/-- The signals of a whole run are those of its tasks. -/
theorem Shows.unfolds (shows : Shows backend p signals p') (stopped : p'.2 = []) :
    Unfolds p.2 signals := by
  -- From the end of the run backwards, the signals are those of the tasks that are left.
  induction shows with
  | done p =>
    rw [stopped]
    exact .done .nil
  | advance _ ih => exact unfolds_advance (ih stopped)
  | tick _ ih => exact ih stopped
  | @give s command signals p later ih =>
    have past : s.history <:+ (s.ask backend .top command).1.history := (Step.give s command).history
    have unfolds : Unfolds ((s.ask backend .top command).2 ++ []) signals := by simpa using ih stopped
    obtain ⟨first, later, same, nested, unfolds⟩ :=
      (asked_ask backend .top s command).nested past unfolds
    rw [same]
    exact .done (nested.append unfolds.nested)

/-- A run can be followed to its end. -/
theorem Shows.finish (shows : Shows backend p signals p') :
    ∃ rest, Unfolds p.2 (signals ++ rest) ∧ (p'.2 = [] → rest = []) := by
  by_cases stopped : p'.2 = []
  · exact ⟨[], by simpa using shows.unfolds stopped, fun _ => rfl⟩
  · obtain ⟨s, tasks⟩ := p'
    have runs : Later backend (s, tasks) (s.run backend tasks, []) := by
      simpa using later_run backend s tasks []
    obtain ⟨rest, further⟩ := runs.shows
    exact ⟨rest, (shows.append further).unfolds rfl, fun ended => absurd ended stopped⟩

/-! ## Who is called -/

theorem since_trans {s'' : Session σ} (first : s.history <:+ s'.history)
    (second : s'.history <:+ s''.history) : since s s'' = since s s' ++ since s' s'' := by
  obtain ⟨earlier, grown⟩ := first
  obtain ⟨later, grown'⟩ := second
  have both : s''.history = (later ++ earlier) ++ s.history := by
    rw [List.append_assoc, grown, grown']
  rw [since_of_history both, since_of_history grown.symm, since_of_history grown'.symm,
    List.reverse_append]

theorem Later.history (later : Later backend p p') : p.1.history <:+ p'.1.history := by
  induction later with
  | refl => exact List.suffix_refl _
  | tail _ step ih => exact ih.trans step.history

theorem history_run (s : Session σ) (tasks : List Task) :
    s.history <:+ (s.run backend tasks).history := by
  simpa using (later_run backend s tasks []).history

/-- What happened first happened since. -/
theorem mem_since {h : Happening} (past : h :: s.history <:+ s'.history) : h ∈ since s s' := by
  obtain ⟨new, grown⟩ := past
  have whole : s'.history = (new ++ [h]) ++ s.history := by simpa using grown.symm
  rw [since_of_history whole]
  simp

theorem heard_quiet (h : Happening) (quiet : h.isNews = false) : h.heard? = none := by
  cases h <;> first | rfl | cases quiet

theorem heard_begun (s s' : Session σ) : (s.begun s').filterMap Signal.heard? = [] := by
  refine List.filterMap_eq_nil_iff.mpr fun signal member => ?_
  obtain ⟨h, -, begins⟩ := List.mem_filterMap.mp member
  cases h <;> cases begins
  rfl

theorem Turn.heard (turn : Turn s p) : ∃ new, p.1.news = new ++ s.news ∧
    new.reverse.filterMap Happening.heard? = [] := by
  cases turn with
  | still still idle => exact ⟨[], still.news, rfl⟩
  | shift shift news idle => exact ⟨[], news, rfl⟩
  | publish event scene news tasks idle => exact ⟨[_], news, rfl⟩

theorem Asked.heard {command : Command} (asked : Asked s command p) :
    ∃ new, p.1.news = new ++ s.news ∧ new.reverse.filterMap Happening.heard? = [] := by
  cases asked with
  | turn other turn =>
    obtain ⟨new, news, silent⟩ := turn.heard
    refine ⟨new ++ [.asked command], ?_, ?_⟩
    · rw [news, news_record s rfl, List.append_assoc]
      rfl
    · rw [List.reverse_append, List.filterMap_append, silent]
      rfl
  | enlists enlists news idle => exact ⟨[.asked command], news, rfl⟩

/-- The subscribers called in a step are those of its signal. -/
theorem heard_advance (s : Session σ) (task : Task) :
    (since s (s.advance backend task).1).filterMap Happening.heard? =
      task.signals.filterMap Signal.heard? := by
  have past : s.history <:+ (s.advance backend task).1.history := (advanced backend s task).history
  have silent (told : ∃ new, (s.advance backend task).1.news = new ++ s.news ∧
      new.reverse.filterMap Happening.heard? = []) :
      (since s (s.advance backend task).1).filterMap Happening.heard? = [] := by
    obtain ⟨new, news, none⟩ := told
    rw [filterMap_since heard_quiet past _ news, none]
  cases plain : task.plain with
  | true =>
    rw [silent (turn_advance backend s plain).heard]
    cases task with
    | round event observers =>
      cases observers with
      | nil => rfl
      | cons observer rest => cases plain
    | _ => rfl
  | false =>
    cases task with
    | script commands =>
      cases commands with
      | nil => cases plain
      | cons command rest => exact silent (asked_ask backend (.nested command.word) s command).heard
    | round event observers =>
      cases observers with
      | nil => cases plain
      | cons observer rest =>
        obtain ⟨-, -, told⟩ := still_notify event s observer
        cases observer with
        | listener key =>
          obtain ⟨label, news⟩ := told
          exact filterMap_since heard_quiet past [.observed key label event] news
        | query key => exact silent ⟨[], told, rfl⟩
        | watch key => exact silent ⟨[], told, rfl⟩
    | _ => cases plain

/-- The calls of subscribers that a run records are those of its signals. -/
theorem Shows.heard (shows : Shows backend p signals p') :
    (since p.1 p'.1).filterMap Happening.heard? = signals.filterMap Signal.heard? := by
  induction shows with
  | done p => rw [since_of_same rfl]; rfl
  | @advance s task rest signals p later ih =>
    have step : s.history <:+ (s.advance backend task).1.history :=
      (Step.advance s task rest).history
    rw [since_trans step later.later.history, List.filterMap_append, ih, heard_advance,
      List.filterMap_append, List.filterMap_append, heard_begun, List.append_nil]
  | tick later ih => exact ih
  | @give s command signals p later ih =>
    have step : s.history <:+ (s.ask backend .top command).1.history := (Step.give s command).history
    obtain ⟨new, news, silent⟩ := (asked_ask backend .top s command).heard
    rw [since_trans step later.later.history, List.filterMap_append, ih, List.filterMap_append,
      heard_begun, filterMap_since heard_quiet step _ news, silent]

/-- The bus of a publish is that of a session of the run. -/
theorem Shows.bus_of_begins (shows : Shows backend p signals p') {event : ChangeEvent}
    {bus : Bus Observer} (begins : .begins event bus ∈ signals) :
    ∃ q, Later backend p q ∧ Later backend q p' ∧ q.1.bus = bus := by
  have here {s s' : Session σ} (member : .begins event bus ∈ s.begun s') : s.bus = bus := by
    obtain ⟨h, -, begins⟩ := List.mem_filterMap.mp member
    cases h <;> cases begins
    rfl
  induction shows with
  | done p => cases begins
  | @advance s task rest signals p later ih =>
    have step : Step backend (s, task :: rest) _ := .advance s task rest
    rcases List.mem_append.mp begins with begins | begins
    · rcases List.mem_append.mp begins with begins | begins
      · cases task with
        | round event observers => cases observers <;> simp [Task.signals] at begins
        | _ => cases begins
      · exact ⟨_, .refl, .head step later.later, here begins⟩
    · obtain ⟨q, before, after, same⟩ := ih begins
      exact ⟨q, .head step before, after, same⟩
  | @tick s tasks now signals p later ih =>
    obtain ⟨q, before, after, same⟩ := ih begins
    exact ⟨q, .head (.tick s tasks now) before, after, same⟩
  | @give s command signals p later ih =>
    have step : Step backend (s, []) _ := .give s command
    rcases List.mem_append.mp begins with begins | begins
    · exact ⟨_, .refl, .head step later.later, here begins⟩
    · obtain ⟨q, before, after, same⟩ := ih begins
      exact ⟨q, .head step before, after, same⟩

/-- In every run, publishes nest, and each of them calls the observers that its bus has for its table when
it begins: each once, in order and with its event. The calls of subscribers are recorded as they happen.
The observers of a publish stand in the order of their numbers, at no other table and at no other place;
none of them had left before the publish began, and none came after that. -/
theorem publish_snapshot (reachable : Reachable backend p) (shows : Shows backend p signals p') :
    (∃ rest, Unfolds p.2 (signals ++ rest) ∧ (p'.2 = [] → rest = [])) ∧
    (since p.1 p'.1).filterMap Happening.heard? = signals.filterMap Signal.heard? ∧
    ∀ event bus, .begins event bus ∈ signals →
      (bus.registered event.table).Pairwise (fun a b => a.number < b.number) ∧
      (bus.observers event.table).Nodup ∧
      (∀ observer ∈ bus.observers event.table, ∀ other, other ≠ event.table →
        observer ∉ bus.observers other) ∧
      (∀ earlier, Reachable backend earlier → Later backend earlier p → ∀ table observer,
        observer ∈ earlier.1.bus.observers table → observer ∉ p.1.bus.observers table →
          observer ∉ bus.observers event.table) ∧
      ∀ table, ∀ a ∈ p'.1.bus.registered table, bus.nextNumber ≤ a.number →
        a.observer ∉ bus.observers event.table := by
  refine ⟨shows.finish, shows.heard, fun event bus begins => ?_⟩
  obtain ⟨q, before, after, rfl⟩ := shows.bus_of_begins begins
  have orderly : q.1.scene.Orderly := (reachable.later before).orderly
  refine ⟨orderly.increasing _, Bus.Orderly.nodup_observers orderly _, ?_, ?_, ?_⟩
  · intro observer here other different there
    obtain ⟨a, member, rfl⟩ := List.mem_map.mp here
    obtain ⟨b, member', same⟩ := List.mem_map.mp there
    exact different (orderly.once other event.table b member' a member same).1
  · intro earlier reached later table observer present left
    have first := later.continues reached.orderly
    have second := before.continues reachable.orderly
    exact first.bus.gone reached.orderly first.known second.bus present left event.table
  · intro table a member late present
    obtain ⟨b, old, same⟩ := List.mem_map.mp present
    rcases (after.continues orderly).bus.old_or_new member with kept | ⟨-, unknown⟩
    · exact absurd (orderly.given table a kept) (Nat.not_lt.mpr late)
    · exact unknown (same ▸ orderly.known event.table b old)

/-- A session with two subscribers of a table. When the first one is called for the first time, it takes the
registration of the second one back, registers a third one and publishes. -/
def crowded : Progress Unit := play .mute 40 (.start () true 0, []) [
  .subscribe "t" "first" [[.unsubscribe "second", .subscribe "t" "third" [], .publish "t" .delete none]],
  .subscribe "t" "second" []]

/-- The session after an event was published. -/
def stirred : Progress Unit :=
  steps .mute 40 (crowded.1.ask .mute .top (.publish "t" .insert none))

/-- The signals of that. -/
def stir : List Signal :=
  crowded.1.begun (crowded.1.ask .mute .top (.publish "t" .insert none)).1 ++
    showing .mute 40 (crowded.1.ask .mute .top (.publish "t" .insert none))

theorem stirred_snapshot :
    (Reachable .mute crowded ∧ Shows .mute crowded stir stirred ∧ stirred.2 = [] ∧
      stir.map Signal.heard? = [none, some (0, ⟨"t", .insert, none⟩), none,
        some (0, ⟨"t", .delete, none⟩), some (2, ⟨"t", .delete, none⟩), none,
        some (1, ⟨"t", .insert, none⟩), none] ∧
      stirred.1.bus.observers "t" = [.listener 0, .listener 2]) ∧
    (∃ rest, Unfolds crowded.2 (stir ++ rest) ∧ (stirred.2 = [] → rest = [])) ∧
    (since crowded.1 stirred.1).filterMap Happening.heard? = stir.filterMap Signal.heard? ∧
    ∀ event bus, .begins event bus ∈ stir →
      (bus.registered event.table).Pairwise (fun a b => a.number < b.number) ∧
      (bus.observers event.table).Nodup ∧
      (∀ observer ∈ bus.observers event.table, ∀ other, other ≠ event.table →
        observer ∉ bus.observers other) ∧
      (∀ earlier, Reachable .mute earlier → Later .mute earlier crowded → ∀ table observer,
        observer ∈ earlier.1.bus.observers table → observer ∉ crowded.1.bus.observers table →
          observer ∉ bus.observers event.table) ∧
      ∀ table, ∀ a ∈ stirred.1.bus.registered table, bus.nextNumber ≤ a.number →
        a.observer ∉ bus.observers event.table := by
  have reachable : Reachable .mute crowded := reachable_play ..
  have shows : Shows .mute crowded stir stirred := .give (shows_steps .mute 40 _)
  exact ⟨⟨reachable, shows, rfl, rfl, rfl⟩, publish_snapshot reachable shows⟩

end Session

end LiveTable
