import LiveTable.Proofs.Moves
import LiveTable.Proofs.Roster
import Mathlib.Logic.Function.Basic

/-!
# The registry

Who is registered on the bus, who holds which registration, and which registrations can be taken
back by their labels is the registry of a session. The registry changes in four ways, and is cleared
when the store is reopened. A run keeps it consistent: a registration belongs to at most one query or
watch, which is active, and as long as the store is not reopened every active query and every active
watch is registered under its own subscription.
-/

namespace LiveTable

/-- The bus, what each query and each watch holds (the registration that it took when it was opened,
and whether it is still active), and the subscriptions that have labels. -/
structure Registry where
  bus : Bus Observer
  held : Observer → Option (Subscription × Bool)
  labelled : Ordered Subscription

/-- The registration that a query or a watch took, and whether it is still active. -/
def Session.held {σ : Type} (s : Session σ) : Observer → Option (Subscription × Bool)
  | .listener _ => none
  | .query key => s.queries[key]?.map fun q => (q.subscription, q.active)
  | .watch key => s.watches[key]?.map fun w => (w.subscription, w.active)

/-- The registry of a session. -/
def Session.registry {σ : Type} (s : Session σ) : Registry := ⟨s.bus, s.held, s.subscriptions⟩

namespace Registry

/-- One change of the registry. -/
inductive Step : Registry → Registry → Prop
  | listen (r : Registry) (table label : String) (key : Nat) :
    Step r { r with
      bus := (r.bus.subscribe table (.listener key)).2
      labelled := r.labelled.insert label ⟨table, r.bus.nextNumber⟩ }
  | unlisten (r : Registry) {label : String} {subscription : Subscription}
    (kept : r.labelled.get? label = some subscription) :
    Step r { r with
      bus := r.bus.unsubscribe subscription
      labelled := r.labelled.erase label }
  | enter (r : Registry) (table : String) {observer : Observer}
    (listens : ∀ key, observer ≠ .listener key) (new : r.held observer = none) :
    Step r { r with
      bus := (r.bus.subscribe table observer).2
      held := Function.update r.held observer (some (⟨table, r.bus.nextNumber⟩, true)) }
  | dispose (r : Registry) {observer : Observer} {subscription : Subscription}
    (active : r.held observer = some (subscription, true)) :
    Step r { r with
      bus := r.bus.unsubscribe subscription
      held := Function.update r.held observer (some (subscription, false)) }

/-- Any number of changes. -/
abbrev Steps : Registry → Registry → Prop := Relation.ReflTransGen Step

/-- The registry after the store was closed. -/
def cleared (r : Registry) : Registry := { r with bus := r.bus.clear, labelled := .empty }

/-- The registrations of a table belong to whom they name, and can be told apart. -/
structure Consistent (r : Registry) : Prop where
  increasing : ∀ table, (r.bus.registered table).Pairwise fun a b => a.number < b.number
  given : ∀ table, ∀ a ∈ r.bus.registered table, a.number < r.bus.nextNumber
  taken : ∀ observer subscription active, r.held observer = some (subscription, active) →
    subscription.number < r.bus.nextNumber
  /-- Whoever is registered holds the registration and is active, unless it just listens. -/
  active : ∀ table, ∀ a ∈ r.bus.registered table, (∃ key, a.observer = .listener key) ∨
    r.held a.observer = some (⟨table, a.number⟩, true)
  /-- Whoever holds a registration is registered by it, if anyone is. -/
  own : ∀ table, ∀ a ∈ r.bus.registered table, ∀ observer active,
    r.held observer = some (⟨table, a.number⟩, active) → a.observer = observer
  /-- A subscription with a label is none that a query or a watch holds. -/
  apart : ∀ label subscription, r.labelled.get? label = some subscription →
    subscription.number < r.bus.nextNumber ∧
      ∀ observer active, r.held observer ≠ some (subscription, active)

/-- Every active query and every active watch is registered. -/
def Complete (r : Registry) : Prop := ∀ observer subscription,
  r.held observer = some (subscription, true) →
    ⟨subscription.number, observer⟩ ∈ r.bus.registered subscription.table

variable {r r' : Registry}

/-! ## One change -/

/-- What a new registration leaves consistent, whoever is registered. -/
theorem Consistent.increasing_subscribe (consistent : Consistent r) (table : String)
    (observer : Observer) (other : String) :
    ((r.bus.subscribe table observer).2.registered other).Pairwise
      fun a b => a.number < b.number := by
  rw [Bus.registered_subscribe]
  by_cases same : table = other
  · rw [if_pos same, List.pairwise_append]
    refine ⟨consistent.increasing other, List.pairwise_singleton .., ?_⟩
    intro a member b last
    rw [List.mem_singleton.mp last]
    exact consistent.given other a member
  · rw [if_neg same, List.append_nil]
    exact consistent.increasing other

theorem Consistent.given_subscribe (consistent : Consistent r) (table : String)
    (observer : Observer) (other : String) (a : Registration Observer)
    (member : a ∈ (r.bus.subscribe table observer).2.registered other) :
    a.number < r.bus.nextNumber + 1 := by
  rcases Bus.mem_subscribe.mp member with member | ⟨-, rfl⟩
  · exact Nat.lt_succ_of_lt (consistent.given other a member)
  · exact Nat.lt_succ_self _

theorem Consistent.listen (consistent : Consistent r) (table label : String) (key : Nat) :
    Consistent { r with
      bus := (r.bus.subscribe table (.listener key)).2
      labelled := r.labelled.insert label ⟨table, r.bus.nextNumber⟩ } where
  increasing := consistent.increasing_subscribe table _
  given := consistent.given_subscribe table _
  taken observer subscription active holds :=
    Nat.lt_succ_of_lt (consistent.taken observer subscription active holds)
  active other a member := by
    rcases Bus.mem_subscribe.mp member with member | ⟨-, rfl⟩
    · exact consistent.active other a member
    · exact .inl ⟨key, rfl⟩
  own other a member observer active holds := by
    rcases Bus.mem_subscribe.mp member with member | ⟨-, rfl⟩
    · exact consistent.own other a member observer active holds
    · exact absurd (consistent.taken _ _ _ holds) (Nat.lt_irrefl _)
  apart sought subscription kept := by
    rw [Ordered.get?_insert] at kept
    split at kept
    · cases kept
      refine ⟨Nat.lt_succ_self _, fun observer active holds => ?_⟩
      exact absurd (consistent.taken _ _ _ holds) (Nat.lt_irrefl _)
    · obtain ⟨older, free⟩ := consistent.apart sought subscription kept
      exact ⟨Nat.lt_succ_of_lt older, free⟩

theorem Consistent.increasing_unsubscribe (consistent : Consistent r) (subscription : Subscription)
    (table : String) : ((r.bus.unsubscribe subscription).registered table).Pairwise
      fun a b => a.number < b.number := by
  rw [Bus.registered_unsubscribe]
  exact (consistent.increasing table).filter _

theorem Consistent.unlisten (consistent : Consistent r) (label : String)
    (subscription : Subscription) :
    Consistent { r with
      bus := r.bus.unsubscribe subscription
      labelled := r.labelled.erase label } where
  increasing := consistent.increasing_unsubscribe subscription
  given table a member := consistent.given table a (Bus.mem_unsubscribe.mp member).1
  taken := consistent.taken
  active table a member := consistent.active table a (Bus.mem_unsubscribe.mp member).1
  own table a member := consistent.own table a (Bus.mem_unsubscribe.mp member).1
  apart sought subscription kept := by
    rw [Ordered.get?_erase] at kept
    split at kept
    · cases kept
    · exact consistent.apart sought subscription kept

theorem Consistent.enter (consistent : Consistent r) (table : String) {observer : Observer}
    (new : r.held observer = none) :
    Consistent { r with
      bus := (r.bus.subscribe table observer).2
      held := Function.update r.held observer (some (⟨table, r.bus.nextNumber⟩, true)) } where
  increasing := consistent.increasing_subscribe table _
  given := consistent.given_subscribe table _
  taken other subscription active holds := by
    simp only [Function.update_apply] at holds
    split at holds
    · cases holds
      exact Nat.lt_succ_self _
    · exact Nat.lt_succ_of_lt (consistent.taken other subscription active holds)
  active other a member := by
    simp only [Function.update_apply]
    rcases Bus.mem_subscribe.mp member with member | ⟨rfl, rfl⟩
    · refine (consistent.active other a member).imp_right fun holds => ?_
      rw [if_neg]
      · exact holds
      · intro same
        rw [same, new] at holds
        cases holds
    · exact .inr (if_pos rfl)
  own other a member holder active holds := by
    simp only [Function.update_apply] at holds
    rcases Bus.mem_subscribe.mp member with member | ⟨-, rfl⟩
    · split at holds
      · simp only [Option.some.injEq, Prod.mk.injEq, Subscription.mk.injEq] at holds
        have older := consistent.given other a member
        omega
      · exact consistent.own other a member holder active holds
    · split at holds
      · rename_i same
        exact same.symm
      · exact absurd (consistent.taken _ _ _ holds) (Nat.lt_irrefl _)
  apart label subscription kept := by
    obtain ⟨older, free⟩ := consistent.apart label subscription kept
    refine ⟨Nat.lt_succ_of_lt older, fun holder active holds => ?_⟩
    simp only [Function.update_apply] at holds
    split at holds
    · cases holds
      exact Nat.lt_irrefl _ older
    · exact free holder active holds

theorem Consistent.dispose (consistent : Consistent r) {observer : Observer}
    {subscription : Subscription} (active : r.held observer = some (subscription, true)) :
    Consistent { r with
      bus := r.bus.unsubscribe subscription
      held := Function.update r.held observer (some (subscription, false)) } where
  increasing := consistent.increasing_unsubscribe subscription
  given table a member := consistent.given table a (Bus.mem_unsubscribe.mp member).1
  taken other held still holds := by
    simp only [Function.update_apply] at holds
    split at holds
    · cases holds
      exact consistent.taken observer subscription true active
    · exact consistent.taken other held still holds
  active table a member := by
    obtain ⟨member, different⟩ := Bus.mem_unsubscribe.mp member
    refine (consistent.active table a member).imp_right fun holds => ?_
    simp only [Function.update_apply]
    rw [if_neg]
    · exact holds
    · intro same
      rw [same, active] at holds
      cases holds
      exact different rfl
  own table a member holder still holds := by
    simp only [Function.update_apply] at holds
    obtain ⟨member, different⟩ := Bus.mem_unsubscribe.mp member
    split at holds
    · simp only [Option.some.injEq, Prod.mk.injEq] at holds
      exact absurd holds.1 different
    · exact consistent.own table a member holder still holds
  apart label kept found := by
    obtain ⟨older, free⟩ := consistent.apart label kept found
    refine ⟨older, fun holder still holds => ?_⟩
    simp only [Function.update_apply] at holds
    split at holds
    · cases holds
      exact free observer true active
    · exact free holder still holds

theorem Consistent.cleared (consistent : Consistent r) : Consistent r.cleared where
  increasing table := by simp [Registry.cleared]
  given table := by simp [Registry.cleared]
  taken := consistent.taken
  active table := by simp [Registry.cleared]
  own table := by simp [Registry.cleared]
  apart label subscription kept := by cases kept

theorem Step.consistent (step : Step r r') (consistent : Consistent r) : Consistent r' := by
  cases step with
  | listen table label key => exact consistent.listen table label key
  | unlisten kept => exact consistent.unlisten _ _
  | enter table listens new => exact consistent.enter table new
  | dispose active => exact consistent.dispose active

theorem Step.complete (step : Step r r') (consistent : Consistent r) (complete : Complete r) :
    Complete r' := by
  intro observer held holds
  cases step with
  | listen table label key => exact Bus.mem_subscribe.mpr (.inl (complete observer held holds))
  | unlisten kept =>
    refine Bus.mem_unsubscribe.mpr ⟨complete observer held holds, ?_⟩
    rintro rfl
    exact (consistent.apart _ _ kept).2 observer true holds
  | enter table listens new =>
    simp only [Function.update_apply] at holds
    split at holds
    · rename_i same
      cases holds
      exact Bus.mem_subscribe.mpr (.inr ⟨rfl, same ▸ rfl⟩)
    · exact Bus.mem_subscribe.mpr (.inl (complete observer held holds))
  | @dispose other _ active =>
    simp only [Function.update_apply] at holds
    split at holds
    · cases holds
    · rename_i different
      have member := complete observer held holds
      refine Bus.mem_unsubscribe.mpr ⟨member, ?_⟩
      rintro rfl
      exact different (consistent.own _ _ member other true active)

theorem Steps.consistent (steps : Steps r r') (consistent : Consistent r) : Consistent r' := by
  induction steps with
  | refl => exact consistent
  | tail _ step ih => exact step.consistent ih

theorem Steps.complete (steps : Steps r r') (consistent : Consistent r) (complete : Complete r) :
    Complete r' := by
  induction steps with
  | refl => exact complete
  | tail steps step ih => exact step.complete (Steps.consistent steps consistent) ih

end Registry

namespace Session

variable {σ : Type} {backend : Backend σ} {s s' : Session σ} {p p' : Progress σ}

/-! ## Runs -/

theorem Alike.registry (alike : Alike s s') : s'.registry = s.registry := by
  have held : s'.held = s.held := by
    funext observer
    cases observer with
    | listener key => rfl
    | query key =>
      have holds := congrArg (Option.map fun q : Query => (q.subscription, q.active)) (alike.query key)
      rwa [Option.map_map, Option.map_map] at holds
    | watch key =>
      have holds := congrArg (Option.map fun w : Watch => (w.subscription, w.active)) (alike.watch key)
      rwa [Option.map_map, Option.map_map] at holds
  rw [Session.registry, held, alike.bus, alike.subscriptions]
  rfl

theorem held_addQuery (s : Session σ) (spec : QuerySpec) (label : String) (plan : Plan) :
    (s.addQuery spec label plan).2.held =
      Function.update s.held (.query s.queries.length) (some (⟨spec.table, s.bus.nextNumber⟩, true)) := by
  funext observer
  rw [Function.update_apply]
  cases observer with
  | listener key => rfl
  | query key =>
    rcases Nat.lt_trichotomy key s.queries.length with old | rfl | none
    · have different : key ≠ s.queries.length := Nat.ne_of_lt old
      simp [held, addQuery, List.getElem?_append_left old, different]
    · simp [held, addQuery, Bus.subscribe]
    · have different : key ≠ s.queries.length := Nat.ne_of_gt none
      have before : s.queries[key]? = Option.none := List.getElem?_eq_none (Nat.le_of_lt none)
      have after : (s.addQuery spec label plan).2.queries[key]? = Option.none := by
        simp [addQuery]
        omega
      simp [held, before, after, different]
  | watch key => rfl

theorem held_addWatch (s : Session σ) (table label : String) (plan : Plan) :
    (s.addWatch table label plan).2.held =
      Function.update s.held (.watch s.watches.length) (some (⟨table, s.bus.nextNumber⟩, true)) := by
  funext observer
  rw [Function.update_apply]
  cases observer with
  | listener key => rfl
  | query key => rfl
  | watch key =>
    rcases Nat.lt_trichotomy key s.watches.length with old | rfl | none
    · have different : key ≠ s.watches.length := Nat.ne_of_lt old
      simp [held, addWatch, List.getElem?_append_left old, different]
    · simp [held, addWatch, Bus.subscribe]
    · have different : key ≠ s.watches.length := Nat.ne_of_gt none
      have before : s.watches[key]? = Option.none := List.getElem?_eq_none (Nat.le_of_lt none)
      have after : (s.addWatch table label plan).2.watches[key]? = Option.none := by
        simp [addWatch]
        omega
      simp [held, before, after, different]

theorem registry_disposeQuery (s : Session σ) (key : Nat) :
    Registry.Steps s.registry (s.disposeQuery key).registry := by
  cases queryDisposed s key with
  | idle inactive done => rw [done]
  | @ended q query active done =>
    have holds : s.registry.held (.query key) = some (q.subscription, true) := by
      simp [registry, held, query, active]
    have disposed : (s.setQuery key fun q => { q with active := false }).held =
        Function.update s.held (.query key) (some (q.subscription, false)) := by
      funext observer
      rw [Function.update_apply]
      cases observer with
      | listener other => rfl
      | watch other => rfl
      | query other =>
        by_cases same : other = key
        · subst same
          simp [held, setQuery, query]
        · simp [held, setQuery, same, Ne.symm same]
    rw [done]
    refine .single ?_
    show Registry.Step s.registry ⟨s.bus.unsubscribe q.subscription,
      (s.setQuery key fun q => { q with active := false }).held, s.subscriptions⟩
    rw [disposed]
    exact .dispose s.registry holds

theorem registry_disposeWatch (s : Session σ) (key : Nat) :
    Registry.Steps s.registry (s.disposeWatch key).registry := by
  cases watchDisposed s key with
  | idle inactive done => rw [done]
  | @ended w watch active done =>
    have holds : s.registry.held (.watch key) = some (w.subscription, true) := by
      simp [registry, held, watch, active]
    have disposed : (s.setWatch key fun w => { w with active := false }).held =
        Function.update s.held (.watch key) (some (w.subscription, false)) := by
      funext observer
      rw [Function.update_apply]
      cases observer with
      | listener other => rfl
      | query other => rfl
      | watch other =>
        by_cases same : other = key
        · subst same
          simp [held, setWatch, watch]
        · simp [held, setWatch, same, Ne.symm same]
    rw [done]
    refine .single ?_
    show Registry.Step s.registry ⟨s.bus.unsubscribe w.subscription,
      (s.setWatch key fun w => { w with active := false }).held, s.subscriptions⟩
    rw [disposed]
    exact .dispose s.registry holds

theorem Move.registry (move : Move s s') : Registry.Steps s.registry s'.registry := by
  cases move with
  | aside alike => exact alike.registry ▸ .refl
  | queue replies => exact .refl
  | record neutral => exact .refl
  | listen table label plan => exact .single (.listen s.registry table label s.listeners.length)
  | unlisten kept => exact .single (.unlisten s.registry kept)
  | openQuery spec label plan =>
    have new : s.registry.held (.query s.queries.length) = none := by simp [registry, held]
    refine .single ?_
    show Registry.Step s.registry ⟨(s.bus.subscribe spec.table (.query s.queries.length)).2,
      (s.addQuery spec label plan).2.held, s.subscriptions⟩
    rw [held_addQuery]
    exact .enter s.registry spec.table (fun key => by simp) new
  | openWatch table label plan =>
    have new : s.registry.held (.watch s.watches.length) = none := by simp [registry, held]
    refine .single ?_
    show Registry.Step s.registry ⟨(s.bus.subscribe table (.watch s.watches.length)).2,
      (s.addWatch table label plan).2.held, s.subscriptions⟩
    rw [held_addWatch]
    exact .enter s.registry table (fun key => by simp) new
  | notify watch active => exact .refl
  | disposeQuery key => exact registry_disposeQuery s key
  | disposeWatch key => exact registry_disposeWatch s key

theorem Moves.registry (moves : Moves s s') : Registry.Steps s.registry s'.registry := by
  induction moves with
  | refl => exact .refl
  | tail _ move ih => exact ih.trans move.registry

theorem Dropped.registry (dropped : Dropped s s') : s'.registry = s.registry.cleared := by
  have held : s'.held = s.held := by
    funext observer
    cases observer <;> simp [Session.held, dropped.queries, dropped.watches]
  rw [Session.registry, held, dropped.bus, dropped.subscriptions]
  rfl

/-- Fetching changes nothing that the registry tells of a query. -/
theorem registry_setQuery (s : Session σ) (key : Nat) {f : Query → Query}
    (subscription : ∀ q, (f q).subscription = q.subscription) (active : ∀ q, (f q).active = q.active) :
    (s.setQuery key f).registry = s.registry := by
  have held : (s.setQuery key f).held = s.held := by
    funext observer
    cases observer with
    | listener other => rfl
    | watch other => rfl
    | query other =>
      by_cases same : key = other
      · subst same
        cases query : s.queries[key]? <;> simp [Session.held, setQuery, query, subscription, active]
      · simp [Session.held, setQuery, same]
  rw [Session.registry, held]
  rfl

theorem registry_deliver (s : Session σ) (key ticket : Nat) (result : Except Error (List Row)) :
    (s.deliver key ticket result).1.registry = s.registry := by
  cases delivered s key ticket result with
  | lost none done => rw [done]
  | accepted query active new calls done =>
    rw [done, calls.registry]
    exact registry_setQuery (s.record (.arrived key ticket result)) key
      (fun q => q.subscription_take ticket result) fun q => q.active_take ticket result
  | discarded query late done => rw [done]; rfl

theorem registry_fetch (s : Session σ) (key : Nat) : (s.fetch key).1.registry = s.registry := by
  have starts (ticket : Nat) : (s.startFetch key ticket).registry = s.registry :=
    registry_setQuery s key (fun _ => rfl) fun _ => rfl
  cases fetched s key with
  | idle inactive done => rw [done]
  | refused query active invalid done =>
    rw [done, registry_deliver]
    exact starts _
  | started query active valid done =>
    rw [done]
    exact starts _

theorem registry_answer (call : Call) (s : Session σ) :
    (s.answer backend call).2.registry = s.registry := by
  obtain ⟨storage, replies, same⟩ := answered backend call s
  rw [same]
  rfl

theorem Reopened.registry (reopened : Reopened s s') : .asked .reopen ∈ s'.history ∧
    ∃ between, Registry.Steps s.registry between ∧ s'.registry = between.cleared := by
  obtain ⟨between, moves, dropped⟩ := reopened.moved
  exact ⟨reopened.asked, _, moves.registry, dropped.registry⟩

theorem Advanced.registry {task : Task} (advanced : Advanced backend s task p) :
    Registry.Steps s.registry p.1.registry ∨ .asked .reopen ∈ p.1.history ∧
      ∃ between, Registry.Steps s.registry between ∧ p.1.registry = between.cleared := by
  have unchanged {s' : Session σ} (same : s'.registry = s.registry) :
      Registry.Steps s.registry s'.registry := same ▸ .refl
  cases advanced with
  | performed quiet performed => exact .inl performed.moves.registry
  | reopened quiet reopened idle => exact .inr reopened.registry
  | fetch key => exact .inl (unchanged (registry_fetch s key))
  | send call next => exact .inl (unchanged (alike_takeHook (s.record (.sent call)) _ _).registry)
  | answer call next =>
    exact .inl (unchanged ((alike_takeHook _ _ _).registry.trans (registry_answer call s)))
  | deliver call answer key ticket =>
    exact .inl (unchanged (registry_deliver (s.record (.returned call answer)) key ticket _))

/-- A step changes the registry, or clears it by reopening the store. -/
theorem Step.registry (step : Step backend p p') : Registry.Steps p.1.registry p'.1.registry ∨
    .asked .reopen ∈ p'.1.history ∧
      ∃ between, Registry.Steps p.1.registry between ∧ p'.1.registry = between.cleared := by
  cases step with
  | advance s task rest => exact (advanced backend s task).registry
  | tick s tasks now => exact .inl .refl
  | give s command =>
    rcases asked_cases backend .top s command with performed | ⟨reopened, -⟩
    · exact .inl performed.moves.registry
    · exact .inr reopened.registry

/-- The registrations of a run are always consistent. -/
theorem Reachable.consistent (reachable : Reachable backend p) : p.1.registry.Consistent := by
  induction reachable with
  | start storage scripted now =>
    exact {
      increasing := fun table => .nil
      given := by simp [Session.registry, Session.start]
      taken := by rintro (key | key | key) <;> simp [Session.registry, Session.start, held]
      active := by simp [Session.registry, Session.start]
      own := by simp [Session.registry, Session.start]
      apart := by
        intro label subscription kept
        cases kept }
  | step _ step ih =>
    rcases step.registry with steps | ⟨-, between, steps, clears⟩
    · exact steps.consistent ih
    · rw [clears]
      exact (steps.consistent ih).cleared

/-- As long as the store is not reopened, whoever is active is registered. -/
theorem Reachable.complete (reachable : Reachable backend p) (never : .asked .reopen ∉ p.1.history) :
    p.1.registry.Complete := by
  induction reachable with
  | start storage scripted now =>
    rintro (key | key | key) <;> simp [Session.registry, Session.start, held]
  | step former step ih =>
    have earlier := ih fun asked => never (step.history.subset asked)
    rcases step.registry with steps | ⟨asked, -⟩
    · exact steps.complete former.consistent earlier
    · exact absurd asked never

end Session

end LiveTable
