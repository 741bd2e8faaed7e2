import LiveTable.Bus

/-!
# The roster

The registrations of a bus in the course of a run. A new registration takes a number that was never
given before and goes to the end of its table's list; taking a registration back leaves the others
where they are. So a list is always in the order of its numbers, every number and every observer
stands at one place only, and whoever left never comes back.
-/

namespace LiveTable

theorem Ordered.mem_place {α : Type} {name : String} {value : α} {l : List (String × α)}
    {e : String × α} (member : e ∈ place name value l) : e = (name, value) ∨ e ∈ l := by
  induction l with
  | nil => exact .inl (List.mem_singleton.mp member)
  | cons first rest ih =>
    obtain ⟨n, v⟩ := first
    rw [place] at member
    split at member
    · rename_i same
      rcases List.mem_cons.mp member with here | later
      · exact .inl (by rw [here, same])
      · exact .inr (List.mem_cons_of_mem _ later)
    · rcases List.mem_cons.mp member with here | later
      · exact .inr (here ▸ List.mem_cons_self ..)
      · exact (ih later).imp_right (List.mem_cons_of_mem _)

namespace Bus

variable {α : Type} {bus bus' bus'' : Bus α} {known known' : α → Prop} {table other : String}
  {observer : α}

theorem mem_subscribe {a : Registration α} :
    a ∈ (bus.subscribe table observer).2.registered other ↔
      a ∈ bus.registered other ∨ table = other ∧ a = ⟨bus.nextNumber, observer⟩ := by
  rw [registered_subscribe, List.mem_append]
  by_cases same : table = other <;> simp [same]

theorem mem_unsubscribe {subscription : Subscription} {a : Registration α} :
    a ∈ (bus.unsubscribe subscription).registered table ↔
      a ∈ bus.registered table ∧ subscription ≠ ⟨table, a.number⟩ := by
  rw [registered_unsubscribe, List.mem_filter, decide_eq_true_eq]

/-- The registrations of a bus, whose observers are all known. -/
structure Orderly (known : α → Prop) (bus : Bus α) : Prop where
  increasing : ∀ table, (bus.registered table).Pairwise fun a b => a.number < b.number
  given : ∀ table, ∀ a ∈ bus.registered table, a.number < bus.nextNumber
  /-- No number is given twice. -/
  apart : ∀ table other, ∀ a ∈ bus.registered table, ∀ b ∈ bus.registered other,
    a.number = b.number → table = other ∧ a = b
  /-- No observer is registered twice. -/
  once : ∀ table other, ∀ a ∈ bus.registered table, ∀ b ∈ bus.registered other,
    a.observer = b.observer → table = other ∧ a = b
  known : ∀ table, ∀ a ∈ bus.registered table, known a.observer
  /-- A table without observers has no entry. -/
  tidy : ∀ entry ∈ bus.tables.entries, entry.2 ≠ []

/-! ## One change -/

theorem orderly_empty (known : α → Prop) : Orderly known empty where
  increasing table := .nil
  given table a member := by cases member
  apart table other a member := by cases member
  once table other a member := by cases member
  known table a member := by cases member
  tidy entry member := by cases member

theorem Orderly.mono (orderly : Orderly known bus) (more : ∀ o, known o → known' o) :
    Orderly known' bus :=
  { orderly with known := fun table a member => more _ (orderly.known table a member) }

/-- A new observer may be registered for any table. -/
theorem Orderly.subscribe (orderly : Orderly known bus) (table : String) (new : ¬ known observer) :
    Orderly (fun o => known o ∨ o = observer) (bus.subscribe table observer).2 where
  increasing other := by
    rw [registered_subscribe]
    by_cases same : table = other
    · rw [if_pos same, List.pairwise_append]
      refine ⟨orderly.increasing other, List.pairwise_singleton .., ?_⟩
      intro a member b last
      rw [List.mem_singleton.mp last]
      exact orderly.given other a member
    · rw [if_neg same, List.append_nil]
      exact orderly.increasing other
  given other a member := by
    rcases mem_subscribe.mp member with member | ⟨-, rfl⟩
    · exact Nat.lt_succ_of_lt (orderly.given other a member)
    · exact Nat.lt_succ_self _
  apart first second a member b member' same := by
    rcases mem_subscribe.mp member with member | ⟨rfl, rfl⟩ <;>
      rcases mem_subscribe.mp member' with member' | ⟨rfl, rfl⟩
    · exact orderly.apart first second a member b member' same
    · exact absurd same (Nat.ne_of_lt (orderly.given first a member))
    · exact absurd same.symm (Nat.ne_of_lt (orderly.given second b member'))
    · exact ⟨rfl, rfl⟩
  once first second a member b member' same := by
    rcases mem_subscribe.mp member with member | ⟨rfl, rfl⟩ <;>
      rcases mem_subscribe.mp member' with member' | ⟨rfl, rfl⟩
    · exact orderly.once first second a member b member' same
    · have present := orderly.known first a member
      rw [same] at present
      exact absurd present new
    · have present := orderly.known second b member'
      rw [← same] at present
      exact absurd present new
    · exact ⟨rfl, rfl⟩
  known other a member := by
    rcases mem_subscribe.mp member with member | ⟨-, rfl⟩
    · exact .inl (orderly.known other a member)
    · exact .inr rfl
  tidy entry member := by
    rcases Ordered.mem_place member with rfl | old
    · simp
    · exact orderly.tidy entry old

theorem Orderly.unsubscribe (orderly : Orderly known bus) (subscription : Subscription) :
    Orderly known (bus.unsubscribe subscription) where
  increasing table := by
    rw [registered_unsubscribe]
    exact (orderly.increasing table).filter _
  given table a member := orderly.given table a (mem_unsubscribe.mp member).1
  apart table other a member b member' :=
    orderly.apart table other a (mem_unsubscribe.mp member).1 b (mem_unsubscribe.mp member').1
  once table other a member b member' :=
    orderly.once table other a (mem_unsubscribe.mp member).1 b (mem_unsubscribe.mp member').1
  known table a member := orderly.known table a (mem_unsubscribe.mp member).1
  tidy entry member := by
    simp only [Bus.unsubscribe] at member
    split at member
    · exact orderly.tidy entry (List.mem_filter.mp member).1
    · rename_i some
      rcases Ordered.mem_place member with rfl | old
      · exact fun none => some (List.isEmpty_iff.mpr none)
      · exact orderly.tidy entry old

theorem orderly_clear (known : α → Prop) (bus : Bus α) : Orderly known bus.clear :=
  { orderly_empty known with given := fun table a member => by cases member }

/-- Each observer of a table is called once for an event. -/
theorem Orderly.nodup_observers (orderly : Orderly known bus) (table : String) :
    (bus.observers table).Nodup := by
  refine List.pairwise_map.mpr ((orderly.increasing table).imp_of_mem ?_)
  intro a b member member' less same
  rw [(orderly.once table table a member b member' same).2] at less
  exact Nat.lt_irrefl _ less

/-! ## Many changes -/

variable [DecidableEq α]

/-- A bus after some changes of another one. The registrations that are left stand in their order,
and all others are behind them, with later numbers and for observers that were not known. -/
structure Continues (known : α → Prop) (bus bus' : Bus α) : Prop where
  number : bus.nextNumber ≤ bus'.nextNumber
  kept : ∀ table, ∃ new, bus'.registered table =
    (bus.registered table).filter (· ∈ bus'.registered table) ++ new ∧
      ∀ a ∈ new, bus.nextNumber ≤ a.number ∧ ¬ known a.observer

/-- A registration of a later bus is an old one at its old place, or new. -/
theorem Continues.old_or_new (continues : Continues known bus bus') {a : Registration α}
    (member : a ∈ bus'.registered table) :
    a ∈ bus.registered table ∨ bus.nextNumber ≤ a.number ∧ ¬ known a.observer := by
  obtain ⟨new, same, fresh⟩ := continues.kept table
  rw [same, List.mem_append] at member
  exact member.imp (fun kept => (List.mem_filter.mp kept).1) (fresh a)

theorem Continues.refl (known : α → Prop) (bus : Bus α) : Continues known bus bus where
  number := Nat.le_refl _
  kept table := ⟨[], by simp [List.filter_eq_self.mpr], by simp⟩

theorem Continues.trans (orderly : Orderly known bus) (first : Continues known bus bus')
    (more : ∀ o, known o → known' o) (second : Continues known' bus' bus'') :
    Continues known bus bus'' where
  number := Nat.le_trans first.number second.number
  kept table := by
    obtain ⟨new, same, fresh⟩ := first.kept table
    obtain ⟨new', same', fresh'⟩ := second.kept table
    -- What was there at first and is there at last was there in between: all else is new.
    have between : ∀ a ∈ bus.registered table, a ∈ bus''.registered table →
        a ∈ bus'.registered table := by
      intro a member last
      rcases second.old_or_new last with old | ⟨late, -⟩
      · exact old
      · have early := orderly.given table a member
        have := first.number
        omega
    have left : ((bus.registered table).filter (· ∈ bus'.registered table)).filter
        (· ∈ bus''.registered table) =
          (bus.registered table).filter (· ∈ bus''.registered table) := by
      rw [List.filter_filter]
      refine List.filter_congr fun a member => ?_
      by_cases last : a ∈ bus''.registered table
      · simp [last, between a member last]
      · simp [last]
    refine ⟨new.filter (· ∈ bus''.registered table) ++ new', ?_, ?_⟩
    · calc bus''.registered table
          = (bus'.registered table).filter (· ∈ bus''.registered table) ++ new' := same'
        _ = (((bus.registered table).filter (· ∈ bus'.registered table) ++ new).filter
              (· ∈ bus''.registered table)) ++ new' := by rw [← same]
        _ = _ := by rw [List.filter_append, left, List.append_assoc]
    · intro a member
      rcases List.mem_append.mp member with member | member
      · exact fresh a (List.mem_filter.mp member).1
      · obtain ⟨late, unknown⟩ := fresh' a member
        exact ⟨Nat.le_trans first.number late, fun old => unknown (more _ old)⟩

theorem Continues.subscribe (table : String) (new : ¬ known observer) :
    Continues known bus (bus.subscribe table observer).2 where
  number := Nat.le_succ _
  kept other := by
    have kept : (bus.registered other).filter
        (· ∈ (bus.subscribe table observer).2.registered other) = bus.registered other :=
      List.filter_eq_self.mpr fun a member => decide_eq_true (mem_subscribe.mpr (.inl member))
    refine ⟨_, by rw [kept]; exact registered_subscribe bus table other observer, fun a member => ?_⟩
    split at member
    · rw [List.mem_singleton.mp member]
      exact ⟨Nat.le_refl _, new⟩
    · cases member

theorem Continues.unsubscribe (known : α → Prop) (bus : Bus α) (subscription : Subscription) :
    Continues known bus (bus.unsubscribe subscription) where
  number := Nat.le_refl _
  kept table := by
    refine ⟨[], ?_, by simp⟩
    rw [List.append_nil, registered_unsubscribe]
    refine List.filter_congr fun a member => ?_
    rw [decide_eq_decide, List.mem_filter, decide_eq_true_eq]
    exact ⟨fun left => ⟨member, left⟩, And.right⟩

theorem Continues.clear (known : α → Prop) (bus : Bus α) : Continues known bus bus.clear where
  number := Nat.le_refl _
  kept table := ⟨[], by simp, by simp⟩

/-- An observer that left a table does not come back to any. -/
theorem Continues.gone (orderly : Orderly known bus) (first : Continues known bus bus')
    (more : ∀ o, known o → known' o) (second : Continues known' bus' bus'')
    (before : observer ∈ bus.observers table) (left : observer ∉ bus'.observers table)
    (other : String) : observer ∉ bus''.observers other := by
  intro back
  obtain ⟨a, member, rfl⟩ := List.mem_map.mp before
  obtain ⟨b, last, same⟩ := List.mem_map.mp back
  have present := orderly.known table a member
  rcases second.old_or_new last with between | ⟨-, unknown⟩
  · rcases first.old_or_new between with old | ⟨-, unknown⟩
    · obtain ⟨rfl, rfl⟩ := orderly.once table other a member b old same.symm
      exact left (List.mem_map_of_mem between)
    · exact unknown (same ▸ present)
  · exact unknown (more _ (same ▸ present))

end Bus

end LiveTable
