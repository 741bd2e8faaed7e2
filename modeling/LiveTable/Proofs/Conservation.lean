import LiveTable.Proofs.Coherence
import LiveTable.Proofs.Disposal
import LiveTable.Proofs.Turns
import Mathlib.Data.List.Nodup

/-!
# Registrations are conserved

A table has as many observers as there are subscribers of it whose registration was not taken back, and
queries and watches of it that are not disposed. What subscribers there are follows from the commands
that were begun: a label names the last subscription that was made under it. Whichever way a
registration is removed, it is one, and the others stay as they are.
-/

namespace LiveTable

/-- A subscription that was not taken back: its table, and its label unless that names a later one. -/
structure Standing where
  table : String
  label : Option String

/-- What becomes of a label when a later subscription is made under a label. -/
def relabel (label : String) (old : Option String) : Option String :=
  if old = some label then none else old

/-- The subscriptions that stand after a command, given those that stood before it. -/
def Command.standing (earlier : List Standing) : Command → List Standing
  | .subscribe table label _ =>
    (earlier.map fun s => ⟨s.table, relabel label s.label⟩) ++ [⟨table, some label⟩]
  | .unsubscribe label => earlier.filter fun s => s.label ≠ some label
  | .reopen => []
  | _ => earlier

/-- The subscriptions that the commands of a history leave standing. The latest command comes first. -/
def standing : List Happening → List Standing
  | [] => []
  | .asked command :: earlier => command.standing (standing earlier)
  | _ :: earlier => standing earlier

/-- The registration of a subscriber. -/
def Observer.listens : Observer → Bool
  | .listener _ => true
  | _ => false

/-- The key of a query. -/
def Observer.query? : Observer → Option Nat
  | .query key => some key
  | _ => none

/-- The key of a watch. -/
def Observer.watch? : Observer → Option Nat
  | .watch key => some key
  | _ => none

/-- One registration was removed, and the others were left as they are. -/
structure Removes (subscription : Subscription) (bus bus' : Bus Observer) : Prop where
  here : ∃ before observer after,
    bus.registered subscription.table = before ++ ⟨subscription.number, observer⟩ :: after ∧
      bus'.registered subscription.table = before ++ after
  elsewhere : ∀ table, table ≠ subscription.table → bus'.registered table = bus.registered table

theorem standing_news (history : List Happening) :
    standing (history.filter Happening.isNews) = standing history := by
  induction history with
  | nil => rfl
  | cons h rest ih =>
    cases h with
    | asked command => exact congrArg (Command.standing · command) ih
    | _ => exact ih

theorem Command.standing_of_other {command : Command} (other : command.enlists = false)
    (earlier : List Standing) : command.standing earlier = earlier := by
  cases command <;> first | rfl | cases other

namespace Scene

variable {c c' : Scene} {l : List Standing}

/-- The numbers of the subscribers of a table. -/
def subscribers (c : Scene) (table : String) : List Nat :=
  ((c.bus.registered table).filter (·.observer.listens)).map (·.number)

/-- The subscribers of a scene are those of the standing subscriptions. -/
structure Stands (c : Scene) (kept : List (Subscription × Option String)) : Prop where
  registered : ∀ table,
    c.subscribers table = (kept.filter (·.1.table = table)).map (·.1.number)
  labelled : ∀ label subscription,
    c.subscriptions.get? label = some subscription ↔ (subscription, some label) ∈ kept
  distinct : (kept.map Prod.fst).Nodup

/-- Queries and watches are on the bus under their own names only. -/
structure Owned (c : Scene) : Prop where
  query : ∀ key stake, c.queries[key]? = some stake →
    ∀ a ∈ c.bus.registered stake.subscription.table, a.number = stake.subscription.number →
      a.observer = .query key
  watch : ∀ key stake, c.watches[key]? = some stake →
    ∀ a ∈ c.bus.registered stake.subscription.table, a.number = stake.subscription.number →
      a.observer = .watch key

/-! ## Subscribers -/

theorem subscribers_subscribe (c : Scene) (table other : String) (observer : Observer) :
    (((c.bus.subscribe table observer).2.registered other).filter (·.observer.listens)).map (·.number) =
      c.subscribers other ++
        if table = other ∧ observer.listens = true then [c.bus.nextNumber] else [] := by
  rw [Bus.registered_subscribe, List.filter_append, List.map_append, subscribers]
  by_cases same : table = other <;> cases listens : observer.listens <;> simp [same, listens]

theorem subscribers_unsubscribe (c : Scene) (subscription : Subscription) (table : String) :
    (((c.bus.unsubscribe subscription).registered table).filter (·.observer.listens)).map (·.number) =
      (c.subscribers table).filter fun n => subscription ≠ ⟨table, n⟩ := by
  rw [Bus.registered_unsubscribe, subscribers, List.filter_filter, List.filter_map,
    List.filter_filter]
  congr 2
  funext a
  exact Bool.and_comm ..

/-- Where a registration belongs to no subscriber, taking it back leaves the subscribers. -/
theorem subscribers_unsubscribe_other {subscription : Subscription}
    (other : ∀ a ∈ c.bus.registered subscription.table, a.number = subscription.number →
      a.observer.listens = false) (table : String) :
    (((c.bus.unsubscribe subscription).registered table).filter (·.observer.listens)).map (·.number) =
      c.subscribers table := by
  rw [subscribers_unsubscribe]
  refine List.filter_eq_self.mpr fun n member => decide_eq_true ?_
  rintro rfl
  obtain ⟨a, present, rfl⟩ := List.mem_map.mp member
  obtain ⟨present, listens⟩ := List.mem_filter.mp present
  rw [other a present rfl] at listens
  cases listens

theorem Shift.stands {kept : List (Subscription × Option String)} (shift : Shift c c')
    (owned : c.Owned) (stands : c.Stands kept) : c'.Stands kept := by
  have keeps (subscribers : ∀ table, c'.subscribers table = c.subscribers table)
      (subscriptions : c'.subscriptions = c.subscriptions) : c'.Stands kept :=
    ⟨fun table => (subscribers table).trans (stands.registered table),
      subscriptions ▸ stands.labelled, stands.distinct⟩
  cases shift with
  | openQuery table =>
    refine keeps (fun other => ?_) rfl
    rw [Scene.subscribers, subscribers_subscribe]
    simp [Observer.listens]
  | openWatch table =>
    refine keeps (fun other => ?_) rfl
    rw [Scene.subscribers, subscribers_subscribe]
    simp [Observer.listens]
  | endQuery query active =>
    refine keeps (fun other => subscribers_unsubscribe_other (fun a member same => ?_) other) rfl
    rw [owned.query _ _ query a member same]
    rfl
  | endWatch watch active =>
    refine keeps (fun other => subscribers_unsubscribe_other (fun a member same => ?_) other) rfl
    rw [owned.watch _ _ watch a member same]
    rfl

/-- The number of a standing subscription is on the bus. -/
theorem Stands.mem_subscribers {kept : List (Subscription × Option String)} (stands : c.Stands kept)
    {k : Subscription × Option String} (member : k ∈ kept) :
    k.1.number ∈ c.subscribers k.1.table := by
  rw [stands.registered]
  exact List.mem_map_of_mem (List.mem_filter.mpr ⟨member, decide_eq_true rfl⟩)

/-- A new subscriber takes the label from an earlier one. -/
theorem Stands.listen {kept : List (Subscription × Option String)} (stands : c.Stands kept)
    (orderly : c.Orderly) (table label : String) :
    (c.listen table label).Stands
      ((kept.map fun k => (k.1, relabel label k.2)) ++ [(⟨table, c.bus.nextNumber⟩, some label)]) where
  registered other := by
    have listened : (c.listen table label).subscribers other =
        c.subscribers other ++ if table = other then [c.bus.nextNumber] else [] := by
      rw [Scene.subscribers, Scene.listen, subscribers_subscribe]
      simp [Observer.listens]
    have old : ((kept.map fun k => (k.1, relabel label k.2)).filter (·.1.table = other)).map
        (·.1.number) = c.subscribers other := by
      rw [stands.registered, List.filter_map, List.map_map]
      rfl
    rw [listened, List.filter_append, List.map_append, old]
    by_cases here : table = other <;> simp [here]
  labelled sought subscription := by
    rw [Scene.listen, Ordered.get?_insert, List.mem_append, List.mem_singleton, List.mem_map]
    by_cases same : label = sought
    · subst same
      rw [if_pos rfl]
      constructor
      · intro new
        cases new
        exact .inr rfl
      · rintro (⟨k, -, relabelled⟩ | new)
        · have kept := congrArg Prod.snd relabelled
          simp only [relabel] at kept
          split at kept
          · cases kept
          · contradiction
        · cases new
          rfl
    · have different : some sought ≠ some label := fun equal => same (Option.some.inj equal).symm
      rw [if_neg same, stands.labelled]
      constructor
      · intro member
        exact .inl ⟨_, member, by simp [relabel, different]⟩
      · rintro (⟨k, member, relabelled⟩ | new)
        · obtain ⟨rfl, kept⟩ := Prod.mk.inj relabelled
          simp only [relabel] at kept
          split at kept
          · cases kept
          · exact kept ▸ member
        · cases new
          exact absurd rfl same
  distinct := by
    rw [List.map_append, List.map_map, List.nodup_append]
    refine ⟨stands.distinct, by simp, ?_⟩
    intro subscription member new last equal
    obtain ⟨k, old, rfl⟩ := List.mem_map.mp member
    rw [List.map_singleton, List.mem_singleton] at last
    -- The number of an old subscription was given before.
    obtain ⟨a, present, number⟩ := List.mem_map.mp (stands.mem_subscribers old)
    have given := orderly.given k.1.table a (List.mem_filter.mp present).1
    have equal : k.1 = ⟨table, c.bus.nextNumber⟩ := equal.trans last
    rw [number, equal] at given
    exact Nat.lt_irrefl _ given

/-- What is taken back by a label is the subscription that it names. -/
theorem Stands.unlisten {kept : List (Subscription × Option String)} (stands : c.Stands kept)
    (label : String) : (c.unlisten label).Stands (kept.filter fun k => k.2 ≠ some label) := by
  unfold Scene.unlisten
  cases named : c.subscriptions.get? label with
  | none =>
    have all : (kept.filter fun k => k.2 ≠ some label) = kept := by
      refine List.filter_eq_self.mpr fun k member => decide_eq_true fun labelled => ?_
      have found := (stands.labelled label k.1).mpr (labelled ▸ member)
      cases named.symm.trans found
    rw [all]
    exact stands
  | some subscription =>
    have mine := (stands.labelled label subscription).mp named
    have names : ∀ k ∈ kept, k.2 = some label ↔ k.1 = subscription := by
      intro k member
      constructor
      · intro labelled
        have found := (stands.labelled label k.1).mpr (labelled ▸ member)
        exact Option.some.inj (found.symm.trans named)
      · intro same
        rw [List.inj_on_of_nodup_map stands.distinct member mine same]
    refine ⟨fun table => ?_, fun sought other => ?_, ?_⟩
    · rw [Scene.subscribers, subscribers_unsubscribe, stands.registered, List.filter_map,
        List.filter_filter, List.filter_filter]
      refine congrArg _ (List.filter_congr fun k member => ?_)
      rw [Bool.eq_iff_iff]
      simp only [Function.comp_apply, Bool.and_eq_true, decide_eq_true_eq, ne_eq, names k member]
      constructor
      · rintro ⟨different, rfl⟩
        exact ⟨rfl, fun same => different same.symm⟩
      · rintro ⟨rfl, different⟩
        exact ⟨fun same => different same.symm, rfl⟩
    · rw [Ordered.get?_erase, List.mem_filter]
      by_cases same : label = sought
      · subst same
        simp
      · have different : some sought ≠ some label := fun equal => same (Option.some.inj equal).symm
        rw [if_neg same, stands.labelled]
        simp [different]
    · exact stands.distinct.sublist (List.filter_sublist.map Prod.fst)

/-- The subscribers on the bus are those of the standing subscriptions. -/
def Accounted (c : Scene) (l : List Standing) : Prop :=
  ∃ kept, c.Stands kept ∧ l = kept.map fun k => ⟨k.1.table, k.2⟩

theorem Enlists.accounted {command : Command} (enlists : Enlists command c c') (orderly : c.Orderly)
    (once : command ≠ .reopen) (accounted : c.Accounted l) : c'.Accounted (command.standing l) := by
  obtain ⟨kept, stands, rfl⟩ := accounted
  cases enlists with
  | subscribe c table label plan =>
    refine ⟨_, stands.listen orderly table label, ?_⟩
    simp [Command.standing, Function.comp_def]
  | unsubscribe c label =>
    refine ⟨_, stands.unlisten label, ?_⟩
    simp [Command.standing, List.filter_map, Function.comp_def]
  | reopen shifts => exact absurd rfl once

theorem Accounted.count (accounted : c.Accounted l) (table : String) :
    ((c.bus.registered table).countP fun a => a.observer.listens) = l.countP (·.table = table) := by
  obtain ⟨kept, stands, rfl⟩ := accounted
  have numbers := congrArg List.length (stands.registered table)
  rw [Scene.subscribers, List.length_map, List.length_map] at numbers
  rw [List.countP_eq_length_filter, numbers, List.countP_map, List.countP_eq_length_filter]
  rfl

/-- Queries and watches are registered for their own tables. -/
def Local (c : Scene) : Prop :=
  c.queries.map (·.subscription.table) = c.queries.map (·.table) ∧
    c.watches.map (·.subscription.table) = c.watches.map (·.table)

/-- What is asked of a stake beside whether it is active is not changed by ending it. -/
theorem map_ended {α : Type} {f : Stake → α}
    (same : ∀ stake : Stake, f { stake with active := false } = f stake) (l : List Stake) (key : Nat) :
    (l.modify key fun stake => { stake with active := false }).map f = l.map f := by
  rw [Session.map_modify f _ id same, List.modify_id]

theorem Shift.isLocal (shift : Shift c c') (own : c.Local) : c'.Local := by
  obtain ⟨queries, watches⟩ := own
  have ended {l : List Stake} (key : Nat)
      (own : l.map (·.subscription.table) = l.map (·.table)) :
      (l.modify key fun stake => { stake with active := false }).map (·.subscription.table) =
        (l.modify key fun stake => { stake with active := false }).map (·.table) :=
    (map_ended (fun _ => rfl) l key).trans (own.trans (map_ended (fun _ => rfl) l key).symm)
  cases shift with
  | openQuery table => exact ⟨by simp [queries], watches⟩
  | openWatch table => exact ⟨queries, by simp [watches]⟩
  | endQuery query active => exact ⟨ended _ queries, watches⟩
  | endWatch watch active => exact ⟨queries, ended _ watches⟩

theorem Shifts.isLocal (shifts : Shifts c c') (own : c.Local) : c'.Local := by
  induction shifts with
  | refl => exact own
  | tail _ shift ih => exact shift.isLocal ih

theorem Change.isLocal (change : Change c c') (own : c.Local) : c'.Local := by
  cases change with
  | same => exact own
  | shift shift => exact shift.isLocal own
  | enlists enlists =>
    cases enlists with
    | subscribe c table label plan => exact own
    | unsubscribe c label =>
      unfold Scene.unlisten
      cases c.subscriptions.get? label with
      | none => exact own
      | some subscription => exact own
    | @reopen _ between shifts =>
      have own : between.Local := Shifts.isLocal shifts own
      exact own

end Scene

/-! ## Removing one registration -/

/-- Where all registrations but one are left, that one was removed. -/
theorem removes {known : Observer → Prop} {bus bus' : Bus Observer} (orderly : bus.Orderly known)
    {subscription : Subscription} {observer : Observer}
    (member : ⟨subscription.number, observer⟩ ∈ bus.registered subscription.table)
    {leaves : String → Registration Observer → Bool}
    (left : ∀ table, bus'.registered table = (bus.registered table).filter (leaves table))
    (only : ∀ table, ∀ a ∈ bus.registered table, leaves table a = false ↔
      table = subscription.table ∧ a = ⟨subscription.number, observer⟩) :
    Removes subscription bus bus' where
  here := by
    obtain ⟨before, after, split⟩ := List.append_of_mem member
    have increasing := orderly.increasing subscription.table
    rw [split, List.pairwise_append, List.pairwise_cons] at increasing
    obtain ⟨-, ⟨behind, -⟩, ahead⟩ := increasing
    have gone := (only _ _ member).mpr ⟨rfl, rfl⟩
    have kept (part : List (Registration Observer)) (present : ∀ a ∈ part,
        a ∈ bus.registered subscription.table ∧ a.number ≠ subscription.number) :
        part.filter (leaves subscription.table) = part := by
      refine List.filter_eq_self.mpr fun a member => ?_
      obtain ⟨present, different⟩ := present a member
      cases stays : leaves subscription.table a with
      | true => rfl
      | false => exact absurd (congrArg _ ((only _ a present).mp stays).2) different
    refine ⟨before, observer, after, split, ?_⟩
    rw [left, split, List.filter_append, List.filter_cons_of_neg (by simp [gone]),
      kept before fun a member => ⟨split ▸ List.mem_append_left _ member,
        Nat.ne_of_lt (ahead a member _ (List.mem_cons_self ..))⟩,
      kept after fun a member => ⟨split ▸ List.mem_append_right _ (List.mem_cons_of_mem _ member),
        Nat.ne_of_gt (behind a member)⟩]
  elsewhere table other := by
    rw [left]
    refine List.filter_eq_self.mpr fun a member => ?_
    cases stays : leaves table a with
    | true => rfl
    | false => exact absurd ((only table a member).mp stays).1 other

/-! ## Counting -/

/-- Keys that are not repeated and name just the elements with a property are as many as those. -/
theorem length_keys {α : Type} {l : List α} {property : α → Bool} {keys : List Nat}
    (nodup : keys.Nodup)
    (names : ∀ key, key ∈ keys ↔ ∃ a, l[key]? = some a ∧ property a = true) :
    keys.length = l.countP property := by
  have places : ((l.zipIdx.filter (property ·.1)).map Prod.snd).Nodup := by
    have all : (l.zipIdx.map Prod.snd).Nodup := by
      rw [List.zipIdx_map_snd]
      exact List.nodup_range'
    exact all.sublist (List.filter_sublist.map Prod.snd)
  have same : keys.Perm ((l.zipIdx.filter (property ·.1)).map Prod.snd) := by
    refine (List.perm_ext_iff_of_nodup nodup places).mpr fun key => ?_
    rw [names]
    simp [List.mem_zipIdx_iff_getElem?]
  calc keys.length
      = l.zipIdx.countP (property ·.1) := by
        rw [same.length_eq, List.length_map, List.countP_eq_length_filter]
    _ = (l.zipIdx.map Prod.fst).countP property := (List.countP_map ..).symm
    _ = l.countP property := by rw [List.zipIdx_map_fst]

/-- Observers are subscribers, queries and watches. -/
theorem length_observers (l : List Observer) : l.length =
    l.countP Observer.listens + (l.filterMap Observer.query?).length +
      (l.filterMap Observer.watch?).length := by
  induction l with
  | nil => rfl
  | cons observer rest ih =>
    rw [List.length_cons, ih, List.countP_cons, List.filterMap_cons, List.filterMap_cons]
    cases observer <;> simp [Observer.listens, Observer.query?, Observer.watch?] <;> omega

/-- Where one kind of observer is for the elements of a list with a property, there are as many. -/
theorem length_kind {α : Type} {l : List α} {property : α → Bool} {observers : List Observer}
    (nodup : observers.Nodup) {key? : Observer → Option Nat} {observer : Nat → Observer}
    (kind : ∀ o key, key? o = some key ↔ o = observer key)
    (present : ∀ key, observer key ∈ observers ↔ ∃ a, l[key]? = some a ∧ property a = true) :
    (observers.filterMap key?).length = l.countP property := by
  refine length_keys (nodup.filterMap fun o o' key one other => ?_) fun key => ?_
  · rw [(kind o key).mp one, (kind o' key).mp other]
  · rw [← present, List.mem_filterMap]
    constructor
    · rintro ⟨o, member, same⟩
      exact (kind o key).mp same ▸ member
    · exact fun member => ⟨_, member, (kind _ key).mpr rfl⟩

namespace Session

variable {σ : Type} {backend : Backend σ} {s s' : Session σ} {p p' : Progress σ}

/-! ## Runs -/

theorem Reachable.owned (reachable : Reachable backend p) : p.1.scene.Owned where
  query key stake found a member same := by
    obtain ⟨q, query, rfl⟩ : ∃ q, p.1.queries[key]? = some q ∧ q.stake = stake := by
      simpa [scene] using found
    refine reachable.consistent.own q.subscription.table a member (.query key) q.active ?_
    simp only [registry, held, query, Option.map_some]
    exact congrArg (fun number => some ((⟨_, number⟩ : Subscription), q.active)) same.symm
  watch key stake found a member same := by
    obtain ⟨w, watch, rfl⟩ : ∃ w, p.1.watches[key]? = some w ∧ w.stake = stake := by
      simpa [scene] using found
    refine reachable.consistent.own w.subscription.table a member (.watch key) w.active ?_
    simp only [registry, held, watch, Option.map_some]
    exact congrArg (fun number => some ((⟨_, number⟩ : Subscription), w.active)) same.symm

theorem Reachable.isLocal (reachable : Reachable backend p) : p.1.scene.Local := by
  induction reachable with
  | start storage scripted now => exact ⟨rfl, rfl⟩
  | step _ step ih => exact step.passed.change.isLocal ih

theorem standing_of_news {earlier : List Standing} (new : List Happening)
    (before : standing s.history = earlier) (news : s'.news = new ++ s.news)
    (quiet : ∀ h ∈ new, ∀ command, h ≠ .asked command) : standing s'.history = earlier := by
  have skips : ∀ new : List Happening, (∀ h ∈ new, ∀ command, h ≠ .asked command) →
      standing (new ++ s.news) = standing s.news := by
    intro new quiet
    induction new with
    | nil => rfl
    | cons h rest ih =>
      have others := ih fun h member => quiet h (List.mem_cons_of_mem _ member)
      cases h with
      | asked command => exact absurd rfl (quiet _ (List.mem_cons_self ..) command)
      | _ => exact others
  rw [← standing_news, ← Session.news, news, skips new quiet, Session.news, standing_news, before]

theorem Turn.accounted (turn : Turn s p) (owned : s.scene.Owned)
    (accounted : s.scene.Accounted (standing s.history)) :
    p.1.scene.Accounted (standing p.1.history) := by
  cases turn with
  | still still idle =>
    rw [still.scene, standing_of_news [] rfl still.news (by simp)]
    exact accounted
  | shift shift news idle =>
    obtain ⟨kept, stands, same⟩ := accounted
    rw [standing_of_news [] same news (by simp)]
    exact ⟨kept, shift.stands owned stands, rfl⟩
  | publish event scene news tasks idle =>
    rw [scene, standing_of_news [_] rfl news (by simp)]
    exact accounted

theorem Passed.accounted (passed : Passed s s') (orderly : s.scene.Orderly) (owned : s.scene.Owned)
    (once : .asked .reopen ∉ s'.history) (accounted : s.scene.Accounted (standing s.history)) :
    s'.scene.Accounted (standing s'.history) := by
  cases passed with
  | turn turn => exact turn.accounted owned accounted
  | @asked command p asked =>
    cases asked with
    | turn other turn =>
      refine turn.accounted owned ?_
      rw [← Command.standing_of_other other (standing s.history)] at accounted
      exact accounted
    | enlists enlists news idle =>
      -- Only such a command changes which subscriptions stand.
      have begun : .asked command ∈ p.1.history := by
        have told : .asked command ∈ p.1.news := news ▸ List.mem_cons_self ..
        exact (List.mem_filter.mp told).1
      have different : command ≠ .reopen := by
        rintro rfl
        exact once begun
      have told : standing p.1.history = command.standing (standing s.history) := by
        rw [← standing_news, ← Session.news, news, standing, Session.news, standing_news]
      rw [told]
      exact enlists.accounted orderly different accounted
  | called scene news =>
    rw [scene]
    rcases news with news | ⟨key, label, event, news⟩
    · rw [standing_of_news [] rfl news (by simp)]
      exact accounted
    · rw [standing_of_news [_] rfl news (by simp)]
      exact accounted

/-- The subscribers of a session are those of the subscriptions that its commands left standing. -/
theorem Reachable.accounted (reachable : Reachable backend p) (once : .asked .reopen ∉ p.1.history) :
    p.1.scene.Accounted (standing p.1.history) := by
  induction reachable with
  | start storage scripted now =>
    refine ⟨[], ⟨fun _ => rfl, fun label subscription => ?_, .nil⟩, rfl⟩
    constructor <;> intro kept <;> cases kept
  | step former step ih =>
    have earlier := ih fun asked => once (step.history.subset asked)
    exact step.passed.accounted former.orderly former.owned once earlier

theorem Reachable.local_query (reachable : Reachable backend p) {key : Nat} {q : Query}
    (query : p.1.queries[key]? = some q) : q.subscription.table = q.spec.table := by
  have own := congrArg (·[key]?) reachable.isLocal.1
  simpa [scene, query, Query.stake] using own

theorem Reachable.local_watch (reachable : Reachable backend p) {key : Nat} {w : Watch}
    (watch : p.1.watches[key]? = some w) : w.subscription.table = w.table := by
  have own := congrArg (·[key]?) reachable.isLocal.2
  simpa [scene, watch, Watch.stake] using own

/-- Whoever is not just a subscriber is on the bus if and only if it is active. -/
theorem Reachable.mem_observers (reachable : Reachable backend p)
    (once : .asked .reopen ∉ p.1.history) {observer : Observer}
    (holder : observer.listens = false) (table : String) :
    observer ∈ p.1.bus.observers table ↔
      ∃ number, p.1.held observer = some (⟨table, number⟩, true) := by
  constructor
  · intro present
    obtain ⟨a, member, rfl⟩ := List.mem_map.mp present
    rcases reachable.consistent.active table a member with ⟨key, listens⟩ | holds
    · rw [listens] at holder
      cases holder
    · exact ⟨a.number, holds⟩
  · rintro ⟨number, holds⟩
    exact List.mem_map.mpr ⟨_, reachable.complete once observer _ holds, rfl⟩

theorem Reachable.count_queries (reachable : Reachable backend p)
    (once : .asked .reopen ∉ p.1.history) (table : String) :
    ((p.1.bus.observers table).filterMap Observer.query?).length =
      p.1.queries.countP fun q => q.active && q.spec.table = table := by
  have nodup : (p.1.bus.observers table).Nodup :=
    Bus.Orderly.nodup_observers reachable.orderly table
  have kind (o : Observer) (key : Nat) : o.query? = some key ↔ o = .query key := by
    cases o <;> simp [Observer.query?]
  refine length_kind nodup kind fun key => ?_
  rw [reachable.mem_observers once rfl]
  constructor
  · rintro ⟨number, holds⟩
    obtain ⟨q, query, same⟩ := Option.map_eq_some_iff.mp holds
    obtain ⟨subscription, active⟩ := Prod.mk.inj same
    have own := reachable.local_query query
    rw [subscription] at own
    exact ⟨q, query, by simp [active, ← own]⟩
  · rintro ⟨q, query, here⟩
    obtain ⟨active, rfl⟩ : q.active = true ∧ q.spec.table = table := by simpa using here
    refine ⟨q.subscription.number, ?_⟩
    rw [held, query, Option.map_some, active, ← reachable.local_query query]

theorem Reachable.count_watches (reachable : Reachable backend p)
    (once : .asked .reopen ∉ p.1.history) (table : String) :
    ((p.1.bus.observers table).filterMap Observer.watch?).length =
      p.1.watches.countP fun w => w.active && w.table = table := by
  have nodup : (p.1.bus.observers table).Nodup :=
    Bus.Orderly.nodup_observers reachable.orderly table
  have kind (o : Observer) (key : Nat) : o.watch? = some key ↔ o = .watch key := by
    cases o <;> simp [Observer.watch?]
  refine length_kind nodup kind fun key => ?_
  rw [reachable.mem_observers once rfl]
  constructor
  · rintro ⟨number, holds⟩
    obtain ⟨w, watch, same⟩ := Option.map_eq_some_iff.mp holds
    obtain ⟨subscription, active⟩ := Prod.mk.inj same
    have own := reachable.local_watch watch
    rw [subscription] at own
    exact ⟨w, watch, by simp [active, ← own]⟩
  · rintro ⟨w, watch, here⟩
    obtain ⟨active, rfl⟩ : w.active = true ∧ w.table = table := by simpa using here
    refine ⟨w.subscription.number, ?_⟩
    rw [held, watch, Option.map_some, active, ← reachable.local_watch watch]

/-- A subscription that has a label is registered. -/
theorem Reachable.listening (reachable : Reachable backend p) (once : .asked .reopen ∉ p.1.history)
    {label : String} {subscription : Subscription}
    (kept : p.1.subscriptions.get? label = some subscription) : ∃ observer,
      ⟨subscription.number, observer⟩ ∈ p.1.bus.registered subscription.table := by
  obtain ⟨subscriptions, stands, -⟩ := reachable.accounted once
  have number := stands.mem_subscribers ((stands.labelled label subscription).mp kept)
  obtain ⟨a, listens, same⟩ := List.mem_map.mp number
  have member : a ∈ p.1.bus.registered subscription.table := (List.mem_filter.mp listens).1
  exact ⟨a.observer, same ▸ member⟩

theorem removes_unsubscribe {tasks : List Task} (reachable : Reachable backend (s, tasks))
    (once : .asked .reopen ∉ s.history) {label : String} {subscription : Subscription}
    (kept : s.subscriptions.get? label = some subscription) (context : Context) :
    Removes subscription s.bus (s.ask backend context (.unsubscribe label)).1.bus := by
  obtain ⟨observer, member⟩ := reachable.listening once kept
  have orderly : s.bus.Orderly s.scene.Knows := reachable.orderly
  have left : (s.ask backend context (.unsubscribe label)).1.bus = s.bus.unsubscribe subscription := by
    have kept : (s.record (.asked (.unsubscribe label))).subscriptions.get? label =
        some subscription := kept
    simp only [ask, perform, withHandle, kept]
    rfl
  rw [left]
  refine removes orderly member (fun table => Bus.registered_unsubscribe ..) fun table a present => ?_
  rw [decide_eq_false_iff_not, not_not]
  constructor
  · rintro rfl
    exact ⟨rfl, (orderly.apart _ _ _ member a present rfl).2.symm⟩
  · rintro ⟨rfl, rfl⟩
    rfl

theorem removes_disposal {tasks : List Task} (reachable : Reachable backend (s, tasks))
    (once : .asked .reopen ∉ s.history) {observer : Observer} {handle : Handle}
    (shows : s.handle? observer = some handle) (active : handle.active = true)
    (disposal : Disposal backend s observer p) : Removes handle.subscription s.bus p.1.bus := by
  have disposed := disposal.disposed reachable.consistent reachable.complete shows
  have orderly : s.bus.Orderly s.scene.Knows := reachable.orderly
  have member := reachable.complete once observer handle.subscription
    (active ▸ held_of_handle? shows)
  refine removes orderly member disposed.registered fun table a present => ?_
  rw [decide_eq_false_iff_not, not_not]
  constructor
  · rintro rfl
    exact orderly.once table _ a present _ member rfl
  · rintro ⟨-, rfl⟩
    rfl

/-- At every point of a run, inside every callback and every call of the storage, the registrations of
a table are those of the subscriptions that stand and of the queries and watches that are not disposed. -/
theorem registrations_conserved {tasks : List Task} (reachable : Reachable backend (s, tasks))
    (once : .asked .reopen ∉ s.history) :
    (∀ table, s.bus.count table = (standing s.history).countP (·.table = table) +
      (s.queries.countP fun q => q.active && q.spec.table = table) +
      s.watches.countP fun w => w.active && w.table = table) ∧
    (∀ table, (s.bus.registered table).Pairwise fun a b => a.number < b.number) ∧
    (∀ table other, ∀ a ∈ s.bus.registered table, ∀ b ∈ s.bus.registered other,
      a.number = b.number → table = other ∧ a = b) ∧
    (∀ entry ∈ s.bus.tables.entries, entry.2 ≠ []) ∧
    (∀ label subscription context, s.subscriptions.get? label = some subscription →
      Removes subscription s.bus (s.ask backend context (.unsubscribe label)).1.bus) ∧
    (∀ observer handle p, s.handle? observer = some handle → handle.active = true →
      Disposal backend s observer p → Removes handle.subscription s.bus p.1.bus) ∧
    ∀ p', Later backend (s, tasks) p' → ∀ table, ∃ new, p'.1.bus.registered table =
      (s.bus.registered table).filter (· ∈ p'.1.bus.registered table) ++ new ∧
        ∀ a ∈ new, s.bus.nextNumber ≤ a.number := by
  have orderly : s.bus.Orderly s.scene.Knows := reachable.orderly
  refine ⟨fun table => ?_, orderly.increasing, orderly.apart, orderly.tidy, ?_, ?_, ?_⟩
  · -- Every observer of the table is of one of three kinds, which are counted apart.
    have listeners := (reachable.accounted once).count table
    have queries := reachable.count_queries once table
    have watches := reachable.count_watches once table
    calc s.bus.count table
        = (s.bus.observers table).length := (List.length_map ..).symm
      _ = _ := length_observers _
      _ = _ := by rw [queries, watches, Bus.observers, List.countP_map, ← listeners]; rfl
  · exact fun label subscription context kept => removes_unsubscribe reachable once kept context
  · exact fun observer handle p shows active => removes_disposal reachable once shows active
  · intro p' later table
    obtain ⟨new, same, fresh⟩ := (later.continues orderly).bus.kept table
    exact ⟨new, same, fun a member => (fresh a member).1⟩

/-- A table with a subscriber that disposed a query in the course of an event and subscribed again under
its own label, with a watch, and with a query whose first fetch is still to be sent. -/
def mixed : Progress Unit :=
  play .mute 1 (play .mute 60 (.start () true 0, []) [
      .subscribe "t" "a" [[.disposeQuery "q", .subscribe "t" "a" []]],
      .openWatch "t" "w" [],
      .openQuery "t" [] (.value ⟨[]⟩) (.value ⟨[]⟩) "q" [],
      .publish "t" .insert none])
    [.openQuery "t" [] (.value ⟨[]⟩) (.value ⟨[]⟩) "r" []]

theorem mixed_conserved :
    (Reachable .mute mixed ∧ .asked .reopen ∉ mixed.1.history ∧ mixed.2.length = 2 ∧
      mixed.1.bus.observers "t" = [.listener 0, .watch 0, .listener 1, .query 1] ∧
      mixed.1.queries.map (·.active) = [false, true]) ∧
    (∀ table, mixed.1.bus.count table = (standing mixed.1.history).countP (·.table = table) +
      (mixed.1.queries.countP fun q => q.active && q.spec.table = table) +
      mixed.1.watches.countP fun w => w.active && w.table = table) ∧
    (∀ table, (mixed.1.bus.registered table).Pairwise fun a b => a.number < b.number) ∧
    (∀ table other, ∀ a ∈ mixed.1.bus.registered table, ∀ b ∈ mixed.1.bus.registered other,
      a.number = b.number → table = other ∧ a = b) ∧
    (∀ entry ∈ mixed.1.bus.tables.entries, entry.2 ≠ []) ∧
    (∀ label subscription context, mixed.1.subscriptions.get? label = some subscription →
      Removes subscription mixed.1.bus (mixed.1.ask .mute context (.unsubscribe label)).1.bus) ∧
    (∀ observer handle p, mixed.1.handle? observer = some handle → handle.active = true →
      Disposal .mute mixed.1 observer p → Removes handle.subscription mixed.1.bus p.1.bus) ∧
    ∀ p', Later .mute (mixed.1, mixed.2) p' → ∀ table, ∃ new, p'.1.bus.registered table =
      (mixed.1.bus.registered table).filter (· ∈ p'.1.bus.registered table) ++ new ∧
        ∀ a ∈ new, mixed.1.bus.nextNumber ≤ a.number := by
  have reachable : Reachable .mute (mixed.1, mixed.2) :=
    (reachable_play 60 () _).later (later_play 1 _ _)
  have once : .asked .reopen ∉ mixed.1.history := by
    have plain : mixed.1.history.all (fun h => match h with
        | .asked .reopen => false
        | _ => true) = true := rfl
    intro asked
    cases List.all_eq_true.mp plain _ asked
  exact ⟨⟨reachable, once, rfl, rfl, rfl⟩,
    registrations_conserved reachable once⟩

end Session

end LiveTable
