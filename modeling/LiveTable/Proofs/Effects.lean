import LiveTable.Session.Run

/-!
# What the operations do

Each operation on a query, a watch or the storage does one of a few things. They are written down
here once, with the conditions under which they are done; whatever an operation keeps is read off
from them.
-/

namespace LiveTable

/-- A query without the plan of its callbacks. -/
def Query.bare (q : Query) : Query := { q with plan := [] }

/-- A watch without the plan of its listener. -/
def Watch.bare (w : Watch) : Watch := { w with plan := [] }

namespace Session

variable {σ : Type} {backend : Backend σ} {s s' : Session σ} {p : Progress σ}

/-- Two sessions that differ at most in plans, hooks, handles, the clock and the outcome. -/
structure Alike (s s' : Session σ) : Prop where
  storage : s'.storage = s.storage
  replies : s'.replies = s.replies
  bus : s'.bus = s.bus
  queries : s'.queries.map Query.bare = s.queries.map Query.bare
  watches : s'.watches.map Watch.bare = s.watches.map Watch.bare
  subscriptions : s'.subscriptions = s.subscriptions
  history : s'.history = s.history

/-- What delivering the result of a fetch does. -/
inductive Delivered (s : Session σ) (key ticket : Nat) (result : Except Error (List Row))
    (p : Progress σ) : Prop
  | lost (none : s.queries[key]? = none) (done : p = (s, []))
  | accepted {q : Query} (query : s.queries[key]? = some q) (active : q.active = true)
    (new : q.delivered ≤ ticket) {s' : Session σ} {script : Script}
    (calls : Alike ((s.record (.arrived key ticket result)).takeResult key ticket q.label result) s')
    (done : p = (s', [.script script]))
  | discarded {q : Query} (query : s.queries[key]? = some q)
    (late : q.active = true → ticket < q.delivered)
    (done : p = ((s.record (.arrived key ticket result)).record (.discarded key ticket), []))

/-- What fetching does. -/
inductive Fetched (s : Session σ) (key : Nat) (p : Progress σ) : Prop
  | idle (inactive : ∀ q, s.queries[key]? = some q → q.active = false) (done : p = (s, []))
  | refused {q : Query} (query : s.queries[key]? = some q) (active : q.active = true) {e : Error}
    (invalid : Request.select q.spec = .error e)
    (done : p = (s.startFetch key (q.started + 1)).deliver key (q.started + 1) (.error e))
  | started {q : Query} (query : s.queries[key]? = some q) (active : q.active = true) {call : Call}
    (valid : Request.select q.spec = .ok call)
    (done : p = (s.startFetch key (q.started + 1), [.send call (.deliver key (q.started + 1))]))

/-- What disposing a query does. -/
inductive QueryDisposed (s : Session σ) (key : Nat) (s' : Session σ) : Prop
  | idle (inactive : ∀ q, s.queries[key]? = some q → q.active = false) (done : s' = s)
  | ended {q : Query} (query : s.queries[key]? = some q) (active : q.active = true)
    (done : s' = ({ s.setQuery key fun q => { q with active := false } with
      bus := s.bus.unsubscribe q.subscription } : Session σ).record (.queryDisposed key))

/-- What disposing a watch does. -/
inductive WatchDisposed (s : Session σ) (key : Nat) (s' : Session σ) : Prop
  | idle (inactive : ∀ w, s.watches[key]? = some w → w.active = false) (done : s' = s)
  | ended {w : Watch} (watch : s.watches[key]? = some w) (active : w.active = true)
    (done : s' = ({ s.setWatch key fun w => { w with active := false } with
      bus := s.bus.unsubscribe w.subscription } : Session σ).record (.watchDisposed key))

/-! ## Plans and hooks -/

theorem Alike.refl (s : Session σ) : Alike s s := ⟨rfl, rfl, rfl, rfl, rfl, rfl, rfl⟩

theorem Alike.length_queries (alike : Alike s s') : s'.queries.length = s.queries.length := by
  simpa using congrArg List.length alike.queries

theorem Alike.query (alike : Alike s s') (key : Nat) :
    (s'.queries[key]?).map Query.bare = (s.queries[key]?).map Query.bare := by
  rw [← List.getElem?_map, alike.queries, List.getElem?_map]

theorem Alike.watch (alike : Alike s s') (key : Nat) :
    (s'.watches[key]?).map Watch.bare = (s.watches[key]?).map Watch.bare := by
  rw [← List.getElem?_map, alike.watches, List.getElem?_map]

theorem map_set_same {α β : Type} (f : α → β) {l : List α} {key : Nat} {old new : α}
    (found : l[key]? = some old) (same : f new = f old) : (l.set key new).map f = l.map f := by
  have bound : key < (l.map f).length := by
    simpa using (List.getElem?_eq_some_iff.mp found).1
  refine List.ext_getElem? fun i => ?_
  rw [List.map_set, same, List.getElem?_set]
  by_cases here : key = i
  · subst here
    rw [if_pos rfl, if_pos bound, List.getElem?_map, found, Option.map_some]
  · rw [if_neg here]

theorem alike_listenerScript (s : Session σ) (key : Nat) : Alike s (s.listenerScript key).2 := by
  unfold listenerScript
  cases s.listeners[key]? with
  | none => exact .refl s
  | some l => exact ⟨rfl, rfl, rfl, rfl, rfl, rfl, rfl⟩

theorem alike_queryScript (s : Session σ) (key : Nat) : Alike s (s.queryScript key).2 := by
  unfold queryScript
  cases found : s.queries[key]? with
  | none => exact .refl s
  | some q => exact ⟨rfl, rfl, rfl, map_set_same Query.bare found rfl, rfl, rfl, rfl⟩

theorem alike_watchScript (s : Session σ) (key : Nat) : Alike s (s.watchScript key).2 := by
  unfold watchScript
  cases found : s.watches[key]? with
  | none => exact .refl s
  | some w => exact ⟨rfl, rfl, rfl, rfl, map_set_same Watch.bare found rfl, rfl, rfl⟩

theorem alike_takeHook (s : Session σ) (kind : CallKind) (moment : Moment) :
    Alike s (s.takeHook kind moment).2 := by
  unfold takeHook
  split
  · exact ⟨rfl, rfl, rfl, rfl, rfl, rfl, rfl⟩
  · exact .refl s

/-! ## Operations -/

theorem delivered (s : Session σ) (key ticket : Nat) (result : Except Error (List Row)) :
    Delivered s key ticket result (s.deliver key ticket result) := by
  unfold deliver
  cases query : s.queries[key]? with
  | none => exact .lost query rfl
  | some q =>
    by_cases accepted : (q.active && decide (q.delivered ≤ ticket)) = true
    · obtain ⟨active, new⟩ := Bool.and_eq_true_iff.mp accepted
      simp only [accepted, if_true]
      exact .accepted query active (of_decide_eq_true new) (alike_queryScript _ key) rfl
    · simp only [accepted, Bool.false_eq_true, if_false]
      refine .discarded query (fun active => Nat.not_le.mp fun new => accepted ?_) rfl
      rw [active, decide_eq_true new]
      rfl

theorem fetched (s : Session σ) (key : Nat) : Fetched s key (s.fetch key) := by
  unfold fetch
  cases query : s.queries[key]? with
  | none => exact .idle (fun q found => nomatch query.symm.trans found) rfl
  | some q =>
    cases active : q.active with
    | false =>
      refine .idle ?_ (by simp [active])
      intro found same
      cases query.symm.trans same
      exact active
    | true =>
      simp only [active, if_true]
      cases selected : Request.select q.spec with
      | error e => exact .refused query active selected rfl
      | ok call => exact .started query active selected rfl

theorem queryDisposed (s : Session σ) (key : Nat) : QueryDisposed s key (s.disposeQuery key) := by
  unfold disposeQuery
  cases query : s.queries[key]? with
  | none => exact .idle (fun q found => nomatch query.symm.trans found) rfl
  | some q =>
    cases active : q.active with
    | false =>
      refine .idle ?_ (by simp [active])
      intro found same
      cases query.symm.trans same
      exact active
    | true => exact .ended query active (by simp [active]; rfl)

theorem watchDisposed (s : Session σ) (key : Nat) : WatchDisposed s key (s.disposeWatch key) := by
  unfold disposeWatch
  cases watch : s.watches[key]? with
  | none => exact .idle (fun w found => nomatch watch.symm.trans found) rfl
  | some w =>
    cases active : w.active with
    | false =>
      refine .idle ?_ (by simp [active])
      intro found same
      cases watch.symm.trans same
      exact active
    | true => exact .ended watch active (by simp [active]; rfl)

variable (backend) in
/-- An answer changes nothing but the storage and the replies in front of it. -/
theorem answered (call : Call) (s : Session σ) :
    ∃ storage replies, (s.answer backend call).2 = { s with storage, replies } := by
  unfold answer
  simp only
  split
  · exact ⟨_, _, rfl⟩
  · exact ⟨_, _, rfl⟩

end Session

end LiveTable
