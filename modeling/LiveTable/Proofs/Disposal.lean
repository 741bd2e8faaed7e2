import LiveTable.Proofs.Ledger
import LiveTable.Proofs.Registry

/-!
# Disposal is final

A query or a watch can be disposed, or its handle dropped, wherever a command can run: at top level,
in its own callback, in another observer of the same event, inside a call that one of its fetches
waits for. From then on it is silent in every continuation of the run: it shows what it showed, starts
no callback and no fetch, and is not registered. Nothing else changes when it is disposed.
-/

namespace LiveTable

/-- A query or a watch, without the plan of its callbacks. -/
inductive Handle
  | query (q : Query)
  | watch (w : Watch)

namespace Handle

/-- It was not disposed. -/
def active : Handle → Bool
  | query q => q.active
  | watch w => w.active

/-- Its registration on the bus. -/
def subscription : Handle → Subscription
  | query q => q.subscription
  | watch w => w.subscription

/-- The handle after it was disposed: it shows what it showed, and is not active. -/
def disposed : Handle → Handle
  | query q => query { q with active := false }
  | watch w => watch { w with active := false }

end Handle

/-- A fetch that had been started came back, and its result was dropped. -/
def Happening.stale : Happening → Bool
  | .arrived .. => true
  | .discarded .. => true
  | _ => false

namespace Session

variable {σ : Type} {backend : Backend σ} {s s' : Session σ} {p p' : Progress σ} {observer : Observer}

/-- The query or the watch of an observer. -/
def handle? (s : Session σ) : Observer → Option Handle
  | .listener _ => none
  | .query key => s.queries[key]?.map fun q => .query q.bare
  | .watch key => s.watches[key]?.map fun w => .watch w.bare

/-- Dispose a query or a watch. -/
def dispose (s : Session σ) : Observer → Session σ
  | .listener _ => s
  | .query key => s.disposeQuery key
  | .watch key => s.disposeWatch key

/-- The ways in which a query or a watch is disposed: by its label, by dropping its label, and by
keeping another one under its label. -/
inductive Disposal (backend : Backend σ) (s : Session σ) : Observer → Progress σ → Prop
  | disposeQuery {label : String} {key : Nat} (kept : s.queryHandles.get? label = some key)
    (context : Context) : Disposal backend s (.query key) (s.ask backend context (.disposeQuery label))
  | dropQuery {label : String} {key : Nat} (kept : s.queryHandles.get? label = some key)
    (context : Context) : Disposal backend s (.query key) (s.ask backend context (.dropQuery label))
  | replaceQuery {label : String} {key : Nat} (kept : s.queryHandles.get? label = some key)
    (new : Nat) (context : Context) :
    Disposal backend s (.query key) (s.advance backend (.keepQuery label new context))
  | disposeWatch {label : String} {key : Nat} (kept : s.watchHandles.get? label = some key)
    (context : Context) : Disposal backend s (.watch key) (s.ask backend context (.disposeWatch label))
  | dropWatch {label : String} {key : Nat} (kept : s.watchHandles.get? label = some key)
    (context : Context) : Disposal backend s (.watch key) (s.ask backend context (.dropWatch label))
  | replaceWatch {label : String} {key : Nat} (kept : s.watchHandles.get? label = some key)
    (new : Nat) (context : Context) :
    Disposal backend s (.watch key) (s.advance backend (.keepWatch label new context))

/-- What disposing a query or a watch changes, and that it changes nothing else. -/
structure Disposed (observer : Observer) (s s' : Session σ) : Prop where
  handle : s'.handle? observer = (s.handle? observer).map Handle.disposed
  others : ∀ other, other ≠ observer → s'.handle? other = s.handle? other
  listeners : s'.listeners = s.listeners
  subscriptions : s'.subscriptions = s.subscriptions
  /-- Its registrations are gone, and the others are there in their order. -/
  registered : ∀ table, s'.bus.registered table =
    (s.bus.registered table).filter fun r => r.observer ≠ observer
  /-- Its table has one observer less, if it was active. The reopening of the store takes all
  registrations away. -/
  count : ∀ handle, s.handle? observer = some handle → handle.active = true →
    .asked .reopen ∉ s.history →
      s.bus.count handle.subscription.table = s'.bus.count handle.subscription.table + 1

/-- What a disposed query or watch is like later on. -/
structure Silent (observer : Observer) (s s' : Session σ) : Prop where
  /-- It shows what it showed when it was disposed. -/
  handle : s'.handle? observer = s.handle? observer
  /-- No callback of it starts, and no fetch. -/
  quiet : ∃ new, s'.trail observer = new ++ s.trail observer ∧ ∀ h ∈ new, h.stale = true
  /-- Refreshing it does nothing. -/
  refresh : ∀ key, observer = .query key → s'.fetch key = (s', [])
  /-- Disposing it again does nothing. -/
  again : s'.dispose observer = s'

/-! ## Disposing -/

/-- What a query or a watch holds is a part of what it shows. -/
theorem held_of_handle? {handle : Handle} (shows : s.handle? observer = some handle) :
    s.held observer = some (handle.subscription, handle.active) := by
  cases observer with
  | listener key => cases shows
  | query key =>
    obtain ⟨q, query, rfl⟩ := Option.map_eq_some_iff.mp shows
    rw [held, query]
    rfl
  | watch key =>
    obtain ⟨w, watch, rfl⟩ := Option.map_eq_some_iff.mp shows
    rw [held, watch]
    rfl

/-- Without its subscription, a holder's registrations are gone and the others are left. -/
theorem registered_without (consistent : s.registry.Consistent) {subscription : Subscription}
    {active : Bool} (holds : s.held observer = some (subscription, active)) (table : String) :
    (s.bus.unsubscribe subscription).registered table =
      (s.bus.registered table).filter fun r => r.observer ≠ observer := by
  rw [Bus.registered_unsubscribe]
  refine List.filter_congr fun r member => ?_
  rw [decide_eq_decide, not_iff_not]
  constructor
  · rintro rfl
    exact consistent.own table r member observer active holds
  · rintro rfl
    rcases consistent.active table r member with ⟨key, listens⟩ | holding
    · rw [listens] at holds
      cases holds
    · have same := holds.symm.trans holding
      simp only [Option.some.injEq, Prod.mk.injEq] at same
      exact same.1

/-- A disposed holder is not registered any more. -/
theorem registered_inactive (consistent : s.registry.Consistent) {subscription : Subscription}
    (holds : s.held observer = some (subscription, false)) (table : String) :
    (s.bus.registered table).filter (fun r => r.observer ≠ observer) = s.bus.registered table := by
  refine List.filter_eq_self.mpr fun r member => decide_eq_true fun same => ?_
  rcases consistent.active table r member with ⟨key, listens⟩ | holding
  · rw [← same, listens] at holds
    cases holds
  · rw [same] at holding
    cases holds.symm.trans holding

/-- A holder that is registered is registered once. -/
theorem count_without (consistent : s.registry.Consistent) {subscription : Subscription}
    {active : Bool} (holds : s.held observer = some (subscription, active))
    (member : ⟨subscription.number, observer⟩ ∈ s.bus.registered subscription.table) :
    (s.bus.registered subscription.table).length =
      ((s.bus.registered subscription.table).filter fun r => r.observer ≠ observer).length + 1 := by
  have distinct : (s.bus.registered subscription.table).Nodup :=
    (consistent.increasing subscription.table).imp fun less same => by
      rw [same] at less
      exact Nat.lt_irrefl _ less
  have without : (s.bus.registered subscription.table).filter (fun r => r.observer ≠ observer) =
      (s.bus.registered subscription.table).erase ⟨subscription.number, observer⟩ := by
    rw [distinct.erase_eq_filter]
    refine List.filter_congr fun r present => ?_
    have same : r.observer = observer ↔ r = ⟨subscription.number, observer⟩ := by
      constructor
      · intro mine
        rcases consistent.active subscription.table r present with ⟨key, listens⟩ | holding
        · rw [← mine, listens] at holds
          cases holds
        · rw [mine] at holding
          have same := holds.symm.trans holding
          simp only [Option.some.injEq, Prod.mk.injEq] at same
          have number : subscription.number = r.number := congrArg Subscription.number same.1
          rw [number, ← mine]
      · rintro rfl
        rfl
    rw [bne, beq_eq_decide, ← decide_not, decide_eq_decide, ne_eq, same]
  rw [without, List.length_erase_of_mem member]
  have positive := List.length_pos_of_mem member
  omega

theorem handle?_disposeQuery (s : Session σ) (key : Nat) (other : Observer) :
    (s.disposeQuery key).handle? other =
      if other = .query key then (s.handle? other).map Handle.disposed else s.handle? other := by
  cases queryDisposed s key with
  | idle inactive done =>
    rw [done]
    split
    · rename_i same
      subst same
      cases query : s.queries[key]? with
      | none => simp [handle?, query]
      | some q => simp [handle?, query, Handle.disposed, Query.bare, inactive q query]
    · rfl
  | ended query active done =>
    rw [done]
    cases other with
    | listener other => simp [handle?]
    | watch other => simp [handle?, record, setQuery]
    | query other =>
      by_cases same : key = other
      · subst same
        simp [handle?, record, setQuery, query, Handle.disposed, Query.bare]
      · simp [handle?, record, setQuery, same, Ne.symm same]

theorem handle?_disposeWatch (s : Session σ) (key : Nat) (other : Observer) :
    (s.disposeWatch key).handle? other =
      if other = .watch key then (s.handle? other).map Handle.disposed else s.handle? other := by
  cases watchDisposed s key with
  | idle inactive done =>
    rw [done]
    split
    · rename_i same
      subst same
      cases watch : s.watches[key]? with
      | none => simp [handle?, watch]
      | some w => simp [handle?, watch, Handle.disposed, Watch.bare, inactive w watch]
    · rfl
  | ended watch active done =>
    rw [done]
    cases other with
    | listener other => simp [handle?]
    | query other => simp [handle?, record, setWatch]
    | watch other =>
      by_cases same : key = other
      · subst same
        simp [handle?, record, setWatch, watch, Handle.disposed, Watch.bare]
      · simp [handle?, record, setWatch, same, Ne.symm same]

theorem bus_dispose {subscription : Subscription}
    (holds : s.held observer = some (subscription, true)) :
    (s.dispose observer).bus = s.bus.unsubscribe subscription := by
  cases observer with
  | listener key => cases holds
  | query key =>
    obtain ⟨q, query, same⟩ := Option.map_eq_some_iff.mp holds
    obtain ⟨rfl, active⟩ := Prod.mk.inj same
    cases queryDisposed s key with
    | idle inactive done => cases active.symm.trans (inactive q query)
    | ended found alive done =>
      cases query.symm.trans found
      rw [dispose, done]
      rfl
  | watch key =>
    obtain ⟨w, watch, same⟩ := Option.map_eq_some_iff.mp holds
    obtain ⟨rfl, active⟩ := Prod.mk.inj same
    cases watchDisposed s key with
    | idle inactive done => cases active.symm.trans (inactive w watch)
    | ended found alive done =>
      cases watch.symm.trans found
      rw [dispose, done]
      rfl

/-- Disposing again changes nothing. -/
theorem dispose_inactive {subscription : Subscription}
    (holds : s.held observer = some (subscription, false)) : s.dispose observer = s := by
  cases observer with
  | listener key => cases holds
  | query key =>
    obtain ⟨q, query, same⟩ := Option.map_eq_some_iff.mp holds
    cases queryDisposed s key with
    | idle inactive done => exact done
    | ended found alive done =>
      cases query.symm.trans found
      cases alive.symm.trans (congrArg Prod.snd same)
  | watch key =>
    obtain ⟨w, watch, same⟩ := Option.map_eq_some_iff.mp holds
    cases watchDisposed s key with
    | idle inactive done => exact done
    | ended found alive done =>
      cases watch.symm.trans found
      cases alive.symm.trans (congrArg Prod.snd same)

theorem handle?_dispose (s : Session σ) (observer : Observer) (other : Observer) :
    (s.dispose observer).handle? other =
      if other = observer then (s.handle? other).map Handle.disposed else s.handle? other := by
  cases observer with
  | listener key =>
    split
    · rename_i same
      rw [same]
      rfl
    · rfl
  | query key => exact handle?_disposeQuery s key other
  | watch key => exact handle?_disposeWatch s key other

theorem listeners_dispose (s : Session σ) (observer : Observer) :
    (s.dispose observer).listeners = s.listeners ∧
      (s.dispose observer).subscriptions = s.subscriptions := by
  cases observer with
  | listener key => exact ⟨rfl, rfl⟩
  | query key =>
    cases queryDisposed s key with
    | idle inactive done => rw [dispose, done]; exact ⟨rfl, rfl⟩
    | ended query active done => rw [dispose, done]; exact ⟨rfl, rfl⟩
  | watch key =>
    cases watchDisposed s key with
    | idle inactive done => rw [dispose, done]; exact ⟨rfl, rfl⟩
    | ended watch active done => rw [dispose, done]; exact ⟨rfl, rfl⟩

/-- Disposing has the same effect in a session that differs in its history or its handles only. -/
theorem disposed_dispose {aside : Session σ} (registry : aside.registry = s.registry)
    (handles : ∀ other, aside.handle? other = s.handle? other)
    (listeners : aside.listeners = s.listeners) (consistent : s.registry.Consistent)
    (complete : .asked .reopen ∉ s.history → s.registry.Complete) {handle : Handle}
    (shows : s.handle? observer = some handle) : Disposed observer s (aside.dispose observer) := by
  have bus : aside.bus = s.bus := congrArg Registry.bus registry
  have holds := held_of_handle? ((handles observer).trans shows)
  have held := held_of_handle? shows
  exact {
    handle := by rw [handle?_dispose, if_pos rfl, handles]
    others := fun other different => by rw [handle?_dispose, if_neg different, handles]
    listeners := (listeners_dispose aside observer).1.trans listeners
    subscriptions := (listeners_dispose aside observer).2.trans (congrArg Registry.labelled registry)
    registered := by
      intro table
      cases active : handle.active with
      | false =>
        rw [active] at holds held
        rw [dispose_inactive holds, bus, registered_inactive consistent held]
      | true =>
        rw [active] at holds held
        rw [bus_dispose holds, bus]
        exact registered_without consistent held table
    count := by
      intro shown shows' active never
      rw [shows, Option.some.injEq] at shows'
      subst shows'
      rw [active] at holds held
      rw [Bus.count, Bus.count, bus_dispose holds, bus, registered_without consistent held]
      exact count_without consistent held (complete never observer _ held) }

theorem Disposal.disposed (disposal : Disposal backend s observer p)
    (consistent : s.registry.Consistent)
    (complete : .asked .reopen ∉ s.history → s.registry.Complete) {handle : Handle}
    (shows : s.handle? observer = some handle) : Disposed observer s p.1 := by
  cases disposal with
  | @disposeQuery label key kept context =>
    have disposes : (s.ask backend context (.disposeQuery label)).1 =
        (s.record (.asked (.disposeQuery label))).dispose (.query key) := by
      simp [ask, perform, withHandle, kept, ended, dispose, record]
    rw [disposes]
    exact disposed_dispose rfl (fun other => by cases other <;> rfl) rfl consistent complete shows
  | @dropQuery label key kept context =>
    have disposes : (s.ask backend context (.dropQuery label)).1 = Session.dispose
        { s.record (.asked (.dropQuery label)) with queryHandles := s.queryHandles.erase label }
        (.query key) := by
      simp [ask, perform, withHandle, kept, ended, Session.dropQuery, dispose, record]
    rw [disposes]
    exact disposed_dispose rfl (fun other => by cases other <;> rfl) rfl consistent complete shows
  | @replaceQuery label key kept new context =>
    have disposes : (s.advance backend (.keepQuery label new context)).1 = Session.dispose
        { s with queryHandles := s.queryHandles.insert label new } (.query key) := by
      simp [advance, keepQuery, kept, dispose]
    rw [disposes]
    exact disposed_dispose rfl (fun other => by cases other <;> rfl) rfl consistent complete shows
  | @disposeWatch label key kept context =>
    have disposes : (s.ask backend context (.disposeWatch label)).1 =
        (s.record (.asked (.disposeWatch label))).dispose (.watch key) := by
      simp [ask, perform, withHandle, kept, ended, dispose, record]
    rw [disposes]
    exact disposed_dispose rfl (fun other => by cases other <;> rfl) rfl consistent complete shows
  | @dropWatch label key kept context =>
    have disposes : (s.ask backend context (.dropWatch label)).1 = Session.dispose
        { s.record (.asked (.dropWatch label)) with watchHandles := s.watchHandles.erase label }
        (.watch key) := by
      simp [ask, perform, withHandle, kept, ended, Session.dropWatch, dispose, record]
    rw [disposes]
    exact disposed_dispose rfl (fun other => by cases other <;> rfl) rfl consistent complete shows
  | @replaceWatch label key kept new context =>
    have disposes : (s.advance backend (.keepWatch label new context)).1 = Session.dispose
        { s with watchHandles := s.watchHandles.insert label new } (.watch key) := by
      simp [advance, keepWatch, kept, dispose]
    rw [disposes]
    exact disposed_dispose rfl (fun other => by cases other <;> rfl) rfl consistent complete shows

/-! ## Afterwards -/

/-- The ledger of a disposed query only takes in results that come too late. -/
theorem silent_ledger {key : Nat} {q : Query} {ledger ledger' : Ledger}
    (steps : Ledger.Steps key ledger ledger') (query : ledger.query = some q)
    (inactive : q.active = false) : ledger'.query = some q ∧
      ∃ new, ledger'.trail = new ++ ledger.trail ∧ ∀ h ∈ new, h.stale = true := by
  induction steps with
  | refl => exact ⟨query, [], rfl, by simp⟩
  | tail _ step ih =>
    obtain ⟨same, new, grown, stale⟩ := ih
    cases step with
    | opened active rows lastError started delivered own => cases same
    | started active =>
      cases same
      rw [active] at inactive
      cases inactive
    | accepted result active timely =>
      cases same
      rw [active] at inactive
      cases inactive
    | @discarded _ _ ticket _ result late =>
      refine ⟨same, .discarded key ticket :: .arrived key ticket result :: new, ?_, ?_⟩
      · exact congrArg (fun rest => .discarded key ticket :: .arrived key ticket result :: rest) grown
      · intro h member
        rcases List.mem_cons.mp member with rfl | member
        · rfl
        · rcases List.mem_cons.mp member with rfl | member
          · rfl
          · exact stale h member
    | disposed active =>
      cases same
      rw [active] at inactive
      cases inactive
    | lost => cases same

/-- A watch without its plan, and what happened to it. -/
def watchLedger (s : Session σ) (key : Nat) : Option Watch × List Happening :=
  ((s.watches[key]?).map Watch.bare, s.trail (.watch key))

/-- A watch that is disposed stays as it is, and nothing happens to it any more. -/
def Hushed (key : Nat) (s s' : Session σ) : Prop :=
  ∀ w, (s.watches[key]?).map Watch.bare = some w → w.active = false →
    s'.watchLedger key = s.watchLedger key

theorem Hushed.of_eq {key : Nat} (same : s'.watchLedger key = s.watchLedger key) : Hushed key s s' :=
  fun _ _ _ => same

theorem Hushed.trans {key : Nat} {s'' : Session σ} (first : Hushed key s s')
    (second : Hushed key s' s'') : Hushed key s s'' := by
  intro w watch inactive
  have same := first w watch inactive
  have watch' : (s'.watches[key]?).map Watch.bare = some w := (congrArg Prod.fst same).trans watch
  exact (second w watch' inactive).trans same

theorem Alike.watchLedger (alike : Alike s s') (key : Nat) :
    s'.watchLedger key = s.watchLedger key := by
  simp only [Session.watchLedger, trail, alike.watch key, alike.history]

theorem watchLedger_record (s : Session σ) {h : Happening} {key : Nat}
    (other : h.about ≠ some (.watch key)) : (s.record h).watchLedger key = s.watchLedger key := by
  rw [watchLedger, trail_other s other]
  rfl

theorem watchLedger_disposeQuery (s : Session σ) (query key : Nat) :
    (s.disposeQuery query).watchLedger key = s.watchLedger key := by
  cases queryDisposed s query with
  | idle inactive done => rw [done]
  | ended query active done =>
    rw [done]
    exact watchLedger_record _ (by simp [Happening.about])

theorem hushed_disposeWatch (s : Session σ) (other key : Nat) :
    Hushed key s (s.disposeWatch other) := by
  intro w watch inactive
  cases watchDisposed s other with
  | idle inactive done => rw [done]
  | ended found active done =>
    have different : other ≠ key := by
      rintro rfl
      rw [found, Option.map_some, Option.some.injEq] at watch
      rw [← watch] at inactive
      exact absurd (active.symm.trans inactive) (by simp)
    rw [done, watchLedger_record _ (by simpa [Happening.about] using different)]
    simp [Session.watchLedger, trail, setWatch, different]

theorem Move.hushed (move : Move s s') (key : Nat) : Hushed key s s' := by
  cases move with
  | aside alike => exact .of_eq (alike.watchLedger key)
  | queue replies => exact .of_eq rfl
  | record neutral => exact .of_eq (watchLedger_record s (by simp [neutral]))
  | listen table label plan => exact .of_eq rfl
  | unlisten kept => exact .of_eq rfl
  | openQuery spec label plan => exact .of_eq rfl
  | openWatch table label plan =>
    intro w watch inactive
    have old : key < s.watches.length := by
      obtain ⟨found, present, -⟩ := Option.map_eq_some_iff.mp watch
      exact (List.getElem?_eq_some_iff.mp present).1
    rw [watchLedger_record _ (by simp [Happening.about]; omega)]
    simp [Session.watchLedger, trail, addWatch, List.getElem?_append_left old]
  | @notify other w' found active =>
    intro w watch inactive
    refine watchLedger_record s ?_
    intro same
    cases same
    rw [found, Option.map_some, Option.some.injEq] at watch
    rw [← watch] at inactive
    exact absurd (active.symm.trans inactive) (by simp)
  | disposeQuery query => exact .of_eq (watchLedger_disposeQuery s query key)
  | disposeWatch other => exact hushed_disposeWatch s other key

theorem Moves.hushed (moves : Moves s s') (key : Nat) : Hushed key s s' := by
  induction moves with
  | refl => exact .of_eq rfl
  | tail _ move ih => exact ih.trans (move.hushed key)

theorem Reopened.hushed (reopened : Reopened s s') (key : Nat) : Hushed key s s' := by
  obtain ⟨between, moves, dropped⟩ := reopened.moved
  refine (moves.hushed key).trans (.of_eq ?_)
  simp only [Session.watchLedger, trail, dropped.watches, dropped.history]

theorem watchLedger_deliver (s : Session σ) (query ticket key : Nat)
    (result : Except Error (List Row)) :
    (s.deliver query ticket result).1.watchLedger key = s.watchLedger key := by
  have arrived : (s.record (.arrived query ticket result)).watchLedger key = s.watchLedger key :=
    watchLedger_record s (by simp [Happening.about])
  cases delivered s query ticket result with
  | lost none done => rw [done]
  | accepted query active new calls done =>
    rw [done, calls.watchLedger, takeResult, watchLedger_record _ (by rw [about_callback]; simp)]
    exact arrived
  | discarded query late done =>
    rw [done, watchLedger_record _ (by simp [Happening.about]), arrived]

theorem watchLedger_fetch (s : Session σ) (query key : Nat) :
    (s.fetch query).1.watchLedger key = s.watchLedger key := by
  have starts (ticket : Nat) : (s.startFetch query ticket).watchLedger key = s.watchLedger key :=
    watchLedger_record (s.setQuery query _) (by simp [Happening.about])
  cases fetched s query with
  | idle inactive done => rw [done]
  | refused query active invalid done => rw [done, watchLedger_deliver, starts]
  | started query active valid done => rw [done, starts]

theorem watchLedger_answer (call : Call) (s : Session σ) (key : Nat) :
    (s.answer backend call).2.watchLedger key = s.watchLedger key := by
  obtain ⟨storage, replies, same⟩ := answered backend call s
  rw [same]
  rfl

theorem Advanced.hushed {task : Task} (advanced : Advanced backend s task p) (key : Nat) :
    Hushed key s p.1 := by
  cases advanced with
  | performed quiet performed => exact performed.moves.hushed key
  | reopened quiet reopened idle => exact reopened.hushed key
  | fetch query => exact .of_eq (watchLedger_fetch s query key)
  | send call next =>
    refine .of_eq ((alike_takeHook (s.record (.sent call)) _ _).watchLedger key |>.trans ?_)
    exact watchLedger_record s (by simp [Happening.about])
  | answer call next =>
    exact .of_eq ((alike_takeHook _ _ _).watchLedger key |>.trans (watchLedger_answer call s key))
  | deliver call answer query ticket =>
    refine .of_eq ((watchLedger_deliver _ query ticket key _).trans ?_)
    exact watchLedger_record s (by simp [Happening.about])

theorem Step.hushed (step : Step backend p p') (key : Nat) : Hushed key p.1 p'.1 := by
  cases step with
  | advance s task rest => exact (advanced backend s task).hushed key
  | tick s tasks now => exact .of_eq rfl
  | give s command =>
    rcases asked_cases backend .top s command with performed | ⟨reopened, -⟩
    · exact performed.moves.hushed key
    · exact reopened.hushed key

theorem Later.hushed (later : Later backend p p') (key : Nat) : Hushed key p.1 p'.1 := by
  induction later with
  | refl => exact .of_eq rfl
  | tail _ step ih => exact ih.trans (step.hushed key)

/-- A query or a watch that is disposed is silent in every continuation of the run. -/
theorem silent_later (later : Later backend p p') {handle : Handle}
    (shows : p.1.handle? observer = some handle) (inactive : handle.active = false) :
    Silent observer p.1 p'.1 := by
  have kept : p'.1.handle? observer = p.1.handle? observer ∧
      ∃ new, p'.1.trail observer = new ++ p.1.trail observer ∧ ∀ h ∈ new, h.stale = true := by
    cases observer with
    | listener key => cases shows
    | query key =>
      obtain ⟨q, query, rfl⟩ := Option.map_eq_some_iff.mp shows
      have before : (ledger key p).query = some q.bare := by simp [ledger, ledgerOf, query]
      obtain ⟨same, grown⟩ := silent_ledger (later.ledger key) before inactive
      have same : (p'.1.queries[key]?).map Query.bare = (p.1.queries[key]?).map Query.bare :=
        same.trans before.symm
      refine ⟨?_, grown⟩
      have shown := congrArg (Option.map Handle.query) same
      rwa [Option.map_map, Option.map_map] at shown
    | watch key =>
      obtain ⟨w, watch, rfl⟩ := Option.map_eq_some_iff.mp shows
      have same := later.hushed key w.bare (by simp [watch]) inactive
      refine ⟨?_, [], congrArg Prod.snd same, by simp⟩
      have shown := congrArg (Option.map Handle.watch) (congrArg Prod.fst same)
      simp only [watchLedger, Option.map_map] at shown
      exact shown
  have holds := held_of_handle? (kept.1.trans shows)
  rw [inactive] at holds
  exact {
    handle := kept.1
    quiet := kept.2
    refresh := by
      rintro key rfl
      obtain ⟨q, query, same⟩ := Option.map_eq_some_iff.mp holds
      have idle : q.active = false := congrArg Prod.snd same
      simp [fetch, query, idle]
    again := dispose_inactive holds }

/-- Wherever in a run a query or a watch is disposed, that takes its registration away and nothing
else, and from then on it is silent, whatever is still to be done. -/
theorem disposal_final {tasks : List Task} (reachable : Reachable backend (s, tasks))
    {handle : Handle} (shows : s.handle? observer = some handle)
    (disposal : Disposal backend s observer p) :
    Disposed observer s p.1 ∧
      ∀ rest p', Later backend (p.1, rest) p' → Silent observer p.1 p'.1 := by
  have disposed := disposal.disposed reachable.consistent reachable.complete shows
  refine ⟨disposed, fun rest p' later => ?_⟩
  have after : p.1.handle? observer = some handle.disposed := by
    rw [disposed.handle, shows, Option.map_some]
  exact silent_later (p := (p.1, rest)) later after (by cases handle <;> rfl)

/-- A query whose second fetch waits for the storage, which is about to run a script that disposes
the query. -/
def cutOff : Progress Unit :=
  play .mute 2 (play .mute 40 (.start () true 0, []) [
      .openQuery "t" [] (.value ⟨[]⟩) (.value ⟨[]⟩) "q" [],
      .hook .query .before [.disposeQuery "q"]])
    [.refresh "q"]

theorem cutOff_silent : Reachable Backend.mute (cutOff.1, cutOff.2) ∧ awaited 0 cutOff.2 = [2] ∧
    ∃ q p, cutOff.1.handle? (.query 0) = some (.query q) ∧ q.active = true ∧
      Disposal .mute cutOff.1 (.query 0) p ∧ Disposed (.query 0) cutOff.1 p.1 ∧
        ∀ rest p', Later .mute (p.1, rest) p' → Silent (.query 0) p.1 p'.1 := by
  have reachable : Reachable Backend.mute (cutOff.1, cutOff.2) :=
    (reachable_play 40 () _).later (later_play 2 _ _)
  have kept : cutOff.1.queryHandles.get? "q" = some 0 := rfl
  have disposal : Disposal .mute cutOff.1 (.query 0) _ :=
    .disposeQuery kept (.nested "dispose_query")
  exact ⟨reachable, rfl, _, _, rfl, rfl, disposal, disposal_final reachable rfl disposal⟩

end Session

end LiveTable
