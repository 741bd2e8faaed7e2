import LiveTable.Proofs.Roster
import LiveTable.Session.State
import Mathlib.Logic.Relation

/-!
# The scene

Who observes a session is its scene: the bus, the number of subscribers that there ever were, and what
each query and each watch has at stake. A scene changes in six ways, and each of them keeps the
registrations in order: an observer is registered when it is new, and numbers only grow.
-/

namespace LiveTable

/-- What a query or a watch has at stake: its registration, its table, and whether it is active. -/
structure Stake where
  subscription : Subscription
  table : String
  active : Bool

/-- What a query has at stake. -/
def Query.stake (q : Query) : Stake := ⟨q.subscription, q.spec.table, q.active⟩

/-- What a watch has at stake. -/
def Watch.stake (w : Watch) : Stake := ⟨w.subscription, w.table, w.active⟩

/-- Those who observe a session. -/
structure Scene where
  bus : Bus Observer
  /-- The number of subscribers that were ever registered. -/
  listeners : Nat
  queries : List Stake
  watches : List Stake
  subscriptions : Ordered Subscription

namespace Scene

/-- There is such an observer, registered or not. -/
def Knows (c : Scene) : Observer → Prop
  | .listener key => key < c.listeners
  | .query key => key < c.queries.length
  | .watch key => key < c.watches.length

/-- The registrations of a scene are in order, and for observers that there are. -/
def Orderly (c : Scene) : Prop := c.bus.Orderly c.Knows

/-- A scene after some changes of another one. -/
structure Continues (c c' : Scene) : Prop where
  bus : c.bus.Continues c.Knows c'.bus
  known : ∀ observer, c.Knows observer → c'.Knows observer

/-- A query or a watch is opened or disposed. -/
inductive Shift : Scene → Scene → Prop
  | openQuery (c : Scene) (table : String) :
    Shift c { c with
      bus := (c.bus.subscribe table (.query c.queries.length)).2
      queries := c.queries ++ [⟨⟨table, c.bus.nextNumber⟩, table, true⟩] }
  | openWatch (c : Scene) (table : String) :
    Shift c { c with
      bus := (c.bus.subscribe table (.watch c.watches.length)).2
      watches := c.watches ++ [⟨⟨table, c.bus.nextNumber⟩, table, true⟩] }
  | endQuery (c : Scene) {key : Nat} {stake : Stake} (query : c.queries[key]? = some stake)
    (active : stake.active = true) :
    Shift c { c with
      bus := c.bus.unsubscribe stake.subscription
      queries := c.queries.modify key fun stake => { stake with active := false } }
  | endWatch (c : Scene) {key : Nat} {stake : Stake} (watch : c.watches[key]? = some stake)
    (active : stake.active = true) :
    Shift c { c with
      bus := c.bus.unsubscribe stake.subscription
      watches := c.watches.modify key fun stake => { stake with active := false } }

/-- Any number of queries and watches are opened or disposed. -/
abbrev Shifts : Scene → Scene → Prop := Relation.ReflTransGen Shift

/-- The scene with one more subscriber. -/
def listen (c : Scene) (table label : String) : Scene :=
  { c with
    bus := (c.bus.subscribe table (.listener c.listeners)).2
    listeners := c.listeners + 1
    subscriptions := c.subscriptions.insert label ⟨table, c.bus.nextNumber⟩ }

/-- The scene without the registration that is kept under a label, if there is one. -/
def unlisten (c : Scene) (label : String) : Scene :=
  match c.subscriptions.get? label with
  | none => c
  | some subscription =>
    { c with
      bus := c.bus.unsubscribe subscription
      subscriptions := c.subscriptions.erase label }

/-- The scene after the store was closed. -/
def cleared (c : Scene) : Scene := { c with bus := c.bus.clear, subscriptions := .empty }

/-- What the commands do that register a subscriber, take a registration back or drop all. -/
inductive Enlists : Command → Scene → Scene → Prop
  | subscribe (c : Scene) (table label : String) (plan : Plan) :
    Enlists (.subscribe table label plan) c (c.listen table label)
  | unsubscribe (c : Scene) (label : String) : Enlists (.unsubscribe label) c (c.unlisten label)
  | reopen {c between : Scene} (shifts : Shifts c between) : Enlists .reopen c between.cleared

/-- What one step of a run can do to the scene. -/
inductive Change : Scene → Scene → Prop
  | same (c : Scene) : Change c c
  | shift {c c' : Scene} (shift : Shift c c') : Change c c'
  | enlists {c c' : Scene} {command : Command} (enlists : Enlists command c c') : Change c c'

variable {c c' c'' : Scene}

/-! ## The registrations of a scene -/

theorem Continues.refl (c : Scene) : Continues c c := ⟨.refl _ _, fun _ known => known⟩

theorem Continues.trans (orderly : c.Orderly) (first : Continues c c') (second : Continues c' c'') :
    Continues c c'' :=
  ⟨first.bus.trans orderly first.known second.bus, fun o known => second.known o (first.known o known)⟩

/-- A new observer may be registered if it is known from then on. -/
theorem Orderly.enter {table : String} (observer : Observer) (orderly : c.Orderly)
    (new : ¬ c.Knows observer) (bus : c'.bus = (c.bus.subscribe table observer).2)
    (known : ∀ o, c.Knows o ∨ o = observer → c'.Knows o) : c'.Orderly ∧ Continues c c' := by
  rw [Orderly, bus]
  exact ⟨(Bus.Orderly.subscribe orderly table new).mono known,
    ⟨bus ▸ .subscribe table new, fun o old => known o (.inl old)⟩⟩

theorem Orderly.leave {subscription : Subscription} (orderly : c.Orderly)
    (bus : c'.bus = c.bus.unsubscribe subscription) (known : ∀ o, c.Knows o → c'.Knows o) :
    c'.Orderly ∧ Continues c c' := by
  rw [Orderly, bus]
  exact ⟨(Bus.Orderly.unsubscribe orderly subscription).mono known,
    ⟨bus ▸ .unsubscribe _ _ subscription, known⟩⟩

theorem Shift.orderly (shift : Shift c c') (orderly : c.Orderly) : c'.Orderly ∧ Continues c c' := by
  cases shift with
  | openQuery table =>
    refine orderly.enter _ (Nat.lt_irrefl _) rfl fun o known => ?_
    rcases known with known | rfl
    · cases o <;> simp [Knows] at known ⊢ <;> omega
    · simp [Knows]
  | openWatch table =>
    refine orderly.enter _ (Nat.lt_irrefl _) rfl fun o known => ?_
    rcases known with known | rfl
    · cases o <;> simp [Knows] at known ⊢ <;> omega
    · simp [Knows]
  | endQuery query active =>
    refine orderly.leave rfl fun o known => ?_
    cases o <;> simpa [Knows] using known
  | endWatch watch active =>
    refine orderly.leave rfl fun o known => ?_
    cases o <;> simpa [Knows] using known

theorem Shifts.orderly (shifts : Shifts c c') (orderly : c.Orderly) :
    c'.Orderly ∧ Continues c c' := by
  induction shifts with
  | refl => exact ⟨orderly, .refl c⟩
  | tail _ shift ih =>
    obtain ⟨between, continues⟩ := ih
    obtain ⟨after, further⟩ := shift.orderly between
    exact ⟨after, continues.trans orderly further⟩

theorem Orderly.listen (orderly : c.Orderly) (table label : String) :
    (c.listen table label).Orderly ∧ Continues c (c.listen table label) := by
  refine orderly.enter (.listener c.listeners) (Nat.lt_irrefl _) rfl fun o known => ?_
  rcases known with known | rfl
  · cases o <;> simp [Knows, Scene.listen] at known ⊢ <;> omega
  · simp [Knows, Scene.listen]

theorem Orderly.unlisten (orderly : c.Orderly) (label : String) :
    (c.unlisten label).Orderly ∧ Continues c (c.unlisten label) := by
  unfold Scene.unlisten
  cases c.subscriptions.get? label with
  | none => exact ⟨orderly, .refl c⟩
  | some subscription =>
    exact orderly.leave rfl fun o known => by cases o <;> exact known

theorem Orderly.cleared (c : Scene) : c.cleared.Orderly ∧ Continues c c.cleared :=
  ⟨Bus.orderly_clear _ _, .clear _ _, fun o known => by cases o <;> exact known⟩

theorem Enlists.orderly {command : Command} (enlists : Enlists command c c') (orderly : c.Orderly) :
    c'.Orderly ∧ Continues c c' := by
  cases enlists with
  | subscribe c table label plan => exact orderly.listen table label
  | unsubscribe c label => exact orderly.unlisten label
  | reopen shifts =>
    obtain ⟨between, continues⟩ := shifts.orderly orderly
    obtain ⟨after, further⟩ := Orderly.cleared _
    exact ⟨after, continues.trans orderly further⟩

theorem Change.orderly (change : Change c c') (orderly : c.Orderly) : c'.Orderly ∧ Continues c c' := by
  cases change with
  | same => exact ⟨orderly, .refl _⟩
  | shift shift => exact shift.orderly orderly
  | enlists enlists => exact enlists.orderly orderly

/-! ## What stays at stake -/

/-- What an observer has at stake, if it is a query or a watch. -/
def stake? (c : Scene) : Observer → Option Stake
  | .listener _ => none
  | .query key => c.queries[key]?
  | .watch key => c.watches[key]?

/-- What was at stake is at stake, but for those that were ended. -/
def Keeps (c c' : Scene) : Prop :=
  ∀ observer stake, c.stake? observer = some stake →
    ∃ active, c'.stake? observer = some { stake with active } ∧ (active = true → stake.active = true)

theorem Keeps.of_same (same : c'.stake? = c.stake?) : Keeps c c' := by
  intro observer stake there
  rw [same]
  exact ⟨stake.active, there, id⟩

theorem Keeps.trans (first : Keeps c c') (second : Keeps c' c'') : Keeps c c'' := by
  intro observer stake there
  obtain ⟨still, between, before⟩ := first observer stake there
  obtain ⟨active, after, further⟩ := second observer _ between
  exact ⟨active, after, fun alive => before (further alive)⟩

theorem keeps_append {stakes : List Stake} {key : Nat} {stake : Stake} (there : stakes[key]? = some stake)
    (new : Stake) : (stakes ++ [new])[key]? = some stake :=
  (List.getElem?_append_left (List.getElem?_eq_some_iff.mp there).1).trans there

theorem keeps_modify {stakes : List Stake} {key : Nat} {stake : Stake} (there : stakes[key]? = some stake)
    (other : Nat) : ∃ active, (stakes.modify other fun stake => { stake with active := false })[key]? =
      some { stake with active } ∧ (active = true → stake.active = true) := by
  rw [List.getElem?_modify, there]
  by_cases same : other = key
  · exact ⟨false, by simp [same], fun alive => by cases alive⟩
  · exact ⟨stake.active, by simp [same], id⟩

theorem Shift.keeps (shift : Shift c c') : Keeps c c' := by
  intro observer stake there
  cases observer with
  | listener key => cases there
  | query key =>
    cases shift with
    | openQuery table => exact ⟨stake.active, keeps_append there _, id⟩
    | endQuery query active => exact keeps_modify there _
    | openWatch table => exact ⟨stake.active, there, id⟩
    | endWatch watch active => exact ⟨stake.active, there, id⟩
  | watch key =>
    cases shift with
    | openWatch table => exact ⟨stake.active, keeps_append there _, id⟩
    | endWatch watch active => exact keeps_modify there _
    | openQuery table => exact ⟨stake.active, there, id⟩
    | endQuery query active => exact ⟨stake.active, there, id⟩

theorem Shifts.keeps (shifts : Shifts c c') : Keeps c c' := by
  induction shifts with
  | refl => exact .of_same rfl
  | tail _ shift ih => exact ih.trans shift.keeps

theorem Change.keeps (change : Change c c') : Keeps c c' := by
  cases change with
  | same => exact .of_same rfl
  | shift shift => exact shift.keeps
  | enlists enlists =>
    cases enlists with
    | subscribe c table label plan => exact .of_same rfl
    | unsubscribe c label =>
      refine .of_same ?_
      unfold unlisten
      cases c.subscriptions.get? label <;> rfl
    | reopen shifts => exact (Shifts.keeps shifts).trans (.of_same rfl)

end Scene

end LiveTable
