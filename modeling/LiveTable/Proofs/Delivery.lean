import LiveTable.Proofs.Ledger

/-!
# Fetches settle in order

A query's fetches are numbered in the order in which they start, but their results may arrive in
another order, for a fetch that waits for the storage may be overtaken by fetches that start inside
of it. Here is what the query shows for it: which results it delivers and which it drops, in which
order it calls back, and what it holds at any point.
-/

namespace LiveTable

/-- The ticket of a fetch that started. -/
def Happening.fetch? : Happening → Option Nat
  | .fetched _ ticket => some ticket
  | _ => none

/-- The ticket of a fetch whose result arrived. -/
def Happening.arrival? : Happening → Option Nat
  | .arrived _ ticket _ => some ticket
  | _ => none

/-- The ticket and the result of a callback. -/
def Happening.callback? : Happening → Option (Nat × Except Error (List Row))
  | .updated _ ticket _ rows => some (ticket, .ok rows)
  | .failed _ ticket _ e => some (ticket, .error e)
  | _ => none

/-- The ticket of a fetch that was delivered or discarded. -/
def Happening.settled? : Happening → Option Nat
  | .updated _ ticket _ _ => some ticket
  | .failed _ ticket _ _ => some ticket
  | .discarded _ ticket => some ticket
  | _ => none

/-- The rows of an update. -/
def Happening.update? : Happening → Option (List Row)
  | .updated _ _ _ rows => some rows
  | _ => none

/-- A result of a ticket comes too late: the query was disposed before, or it called back with the
result of a fetch that started later. -/
def Late (key ticket : Nat) (past : List Happening) : Prop :=
  .queryDisposed key ∈ past ∨ ∃ call ∈ past.filterMap Happening.callback?, ticket < call.1

/-- Each result that arrived was judged at once: one that came too late was discarded, any other was
delivered, rows as an update and an error as a failure. -/
def Judged (key : Nat) (label : String) (past : List Happening) : Prop :=
  ∀ i ticket result, past[i]? = some (.arrived key ticket result) →
    (Late key ticket (past.take i) ∧ past[i + 1]? = some (.discarded key ticket)) ∨
      (¬ Late key ticket (past.take i) ∧ past[i + 1]? = some (.callback key ticket label result))

/-- A query is in order with its past, given oldest first, and with the tickets of its fetches that
wait for the storage. -/
structure InOrder (key : Nat) (q : Query) (past : List Happening) (waiting : List Nat) : Prop where
  /-- Fetches take the tickets 1, 2, 3 and so on in the order in which they start. -/
  started : past.filterMap Happening.fetch? = List.range' 1 q.started
  /-- Each of them waits, or its result arrived, and only once. -/
  arrived : (past.filterMap Happening.arrival? ++ waiting).Perm (List.range' 1 q.started)
  judged : Judged key q.label past
  /-- Each result that arrived is delivered or discarded once, and nothing else is. -/
  settled : past.filterMap Happening.settled? = past.filterMap Happening.arrival?
  /-- The tickets of the callbacks increase. -/
  increasing : ((past.filterMap Happening.callback?).map Prod.fst).Pairwise (· < ·)
  /-- The query keeps the ticket of its last callback. -/
  delivered : q.delivered = ((past.filterMap Happening.callback?).getLast?.map Prod.fst).getD 0
  /-- It is active as long as it was not disposed. -/
  active : q.active = true ↔ .queryDisposed key ∉ past
  /-- Its rows are those of its last update. -/
  rows : q.rows = (past.filterMap Happening.update?).getLast?.getD []
  /-- It has an error exactly if its last callback was a failure, and then it is that error. -/
  lastError : ∀ e, q.lastError = some e ↔
    ∃ ticket, (past.filterMap Happening.callback?).getLast? = some (ticket, .error e)

/-! ## Judgments -/

section

variable {key ticket : Nat} {label : String} {result : Except Error (List Row)}
  {past : List Happening} {h : Happening}

theorem Judged.append (judged : Judged key label past) {new : List Happening}
    (fresh : ∀ i ticket result, new[i]? = some (.arrived key ticket result) →
      (Late key ticket (past ++ new.take i) ∧ new[i + 1]? = some (.discarded key ticket)) ∨
        (¬ Late key ticket (past ++ new.take i) ∧
          new[i + 1]? = some (.callback key ticket label result))) :
    Judged key label (past ++ new) := by
  intro i ticket result found
  by_cases old : i < past.length
  · rw [List.getElem?_append_left old] at found
    rw [List.take_append_of_le_length (Nat.le_of_lt old)]
    have next : ∀ h, past[i + 1]? = some h → (past ++ new)[i + 1]? = some h := by
      intro h present
      rw [List.getElem?_append_left (List.getElem?_eq_some_iff.mp present).1, present]
    rcases judged i ticket result found with ⟨late, verdict⟩ | ⟨timely, verdict⟩
    · exact .inl ⟨late, next _ verdict⟩
    · exact .inr ⟨timely, next _ verdict⟩
  · obtain ⟨j, rfl⟩ := Nat.exists_eq_add_of_le (Nat.not_lt.mp old)
    rw [List.getElem?_append_right (Nat.le_add_right _ _), Nat.add_sub_cancel_left] at found
    have taken : (past ++ new).take (past.length + j) = past ++ new.take j := by
      rw [List.take_append, List.take_of_length_le (Nat.le_add_right _ _), Nat.add_sub_cancel_left]
    have next : (past ++ new)[past.length + j + 1]? = new[j + 1]? := by
      rw [Nat.add_assoc, List.getElem?_append_right (Nat.le_add_right _ _), Nat.add_sub_cancel_left]
    rw [taken, next]
    exact fresh j ticket result found

/-- A happening that is no arrival leaves nothing to be judged. -/
theorem Judged.concat (judged : Judged key label past) (other : h.arrival? = none) :
    Judged key label (past ++ [h]) := by
  refine judged.append fun i ticket result found => ?_
  have same : h = .arrived key ticket result := by
    have member := List.mem_of_getElem? found
    exact (List.mem_singleton.mp member).symm
  rw [same] at other
  cases other

/-- An arrival comes with its judgment. -/
theorem Judged.settle (judged : Judged key label past) (none : h.arrival? = none)
    (verdict : (Late key ticket past ∧ h = .discarded key ticket) ∨
      (¬ Late key ticket past ∧ h = .callback key ticket label result)) :
    Judged key label (past ++ [.arrived key ticket result, h]) := by
  refine judged.append fun i ticket' result' found => ?_
  match i with
  | 0 =>
    simp only [List.getElem?_cons_zero, Option.some.injEq, Happening.arrived.injEq, true_and] at found
    obtain ⟨rfl, rfl⟩ := found
    simpa using verdict
  | 1 =>
    simp only [List.getElem?_cons_succ, List.getElem?_cons_zero, Option.some.injEq] at found
    rw [found] at none
    cases none
  | i + 2 => simp at found

end

namespace InOrder

variable {key : Nat} {q : Query} {past : List Happening} {waiting : List Nat} {ticket : Nat}
  {result : Except Error (List Row)}

theorem settled?_of_callback? {h : Happening} {call : Nat × Except Error (List Row)}
    (calls : h.callback? = some call) : h.settled? = some call.1 := by
  cases h <;> simp only [Happening.callback?, Option.some.injEq, reduceCtorEq] at calls
  all_goals subst calls; rfl

/-- A fetch that called back had its result. -/
theorem called (order : InOrder key q past waiting) {call : Nat × Except Error (List Row)}
    (member : call ∈ past.filterMap Happening.callback?) :
    call.1 ∈ past.filterMap Happening.arrival? := by
  obtain ⟨h, happened, calls⟩ := List.mem_filterMap.mp member
  rw [← order.settled]
  exact List.mem_filterMap.mpr ⟨h, happened, settled?_of_callback? calls⟩

/-- No callback has a larger ticket than the one that the query keeps. -/
theorem le_delivered (order : InOrder key q past waiting) {call : Nat × Except Error (List Row)}
    (member : call ∈ past.filterMap Happening.callback?) : call.1 ≤ q.delivered := by
  have delivered := order.delivered
  have increasing := order.increasing
  rcases List.eq_nil_or_concat (past.filterMap Happening.callback?) with none | ⟨calls, last, shape⟩
  · rw [none] at member
    cases member
  · rw [shape, List.concat_eq_append] at delivered increasing member
    rw [List.getLast?_concat, Option.map_some, Option.getD_some] at delivered
    rw [List.map_append, List.pairwise_append] at increasing
    rw [delivered]
    rcases List.mem_append.mp member with earlier | latest
    · have less := increasing.2.2 call.1 (List.mem_map_of_mem earlier) last.1 (by simp)
      exact Nat.le_of_lt less
    · exact Nat.le_of_eq (congrArg Prod.fst (List.mem_singleton.mp latest))

/-- What the query keeps is the ticket of a callback, once it called back. -/
theorem delivered_mem (order : InOrder key q past waiting) :
    q.delivered = 0 ∨ ∃ call ∈ past.filterMap Happening.callback?, call.1 = q.delivered := by
  rw [order.delivered]
  cases last : (past.filterMap Happening.callback?).getLast? with
  | none => exact .inl rfl
  | some call => exact .inr ⟨call, List.mem_of_getLast? last, rfl⟩

/-- The query itself tells which results come too late. -/
theorem late_iff (order : InOrder key q past waiting) :
    Late key ticket past ↔ (q.active = true → ticket < q.delivered) := by
  constructor
  · rintro (disposed | ⟨call, member, larger⟩) active
    · exact absurd disposed (order.active.mp active)
    · exact Nat.lt_of_lt_of_le larger (order.le_delivered member)
  · intro late
    cases active : q.active with
    | false =>
      refine .inl (Classical.byContradiction fun kept => ?_)
      rw [order.active.mpr kept] at active
      cases active
    | true =>
      rcases order.delivered_mem with zero | ⟨call, member, same⟩
      · exact absurd (zero ▸ late active) (Nat.not_lt_zero _)
      · exact .inr ⟨call, member, same ▸ late active⟩

/-- A fetch that waits has a ticket that no callback had. -/
theorem waiting_ne (order : InOrder key q past (ticket :: waiting)) : ticket ≠ q.delivered := by
  have distinct := order.arrived.nodup_iff.mpr List.nodup_range'
  have positive : 1 ≤ ticket :=
    (List.mem_range'_1.mp (order.arrived.mem_iff.mp (by simp))).1
  rcases order.delivered_mem with zero | ⟨call, member, same⟩
  · omega
  · rintro rfl
    exact (List.nodup_append.mp distinct).2.2 _ (order.called member) _ (List.mem_cons_self ..) same

/-- A result that waits is that of a fetch that started. -/
theorem le_started (order : InOrder key q past (ticket :: waiting)) : ticket ≤ q.started := by
  have waits : ticket ∈ past.filterMap Happening.arrival? ++ ticket :: waiting := by simp
  have started := (List.mem_range'_1.mp (order.arrived.mem_iff.mp waits)).2
  omega

/-- What the query keeps is the ticket of a fetch that started, if it is one. -/
theorem delivered_le_started (order : InOrder key q past waiting) : q.delivered ≤ q.started := by
  rcases order.delivered_mem with zero | ⟨call, member, same⟩
  · omega
  · have arrived := List.mem_append_left waiting (order.called member)
    have started := (List.mem_range'_1.mp (order.arrived.mem_iff.mp arrived)).2
    omega

theorem opened (active : q.active = true) (rows : q.rows = []) (lastError : q.lastError = none)
    (started : q.started = 0) (delivered : q.delivered = 0) : InOrder key q [] [] where
  started := by simp [started]
  arrived := by simp [started]
  judged := by simp [Judged]
  settled := rfl
  increasing := .nil
  delivered := by simp [delivered]
  active := by simp [active]
  rows := by simp [rows]
  lastError := by simp [lastError]

theorem start (order : InOrder key q past waiting) :
    InOrder key { q with started := q.started + 1 } (past ++ [.fetched key (q.started + 1)])
      ((q.started + 1) :: waiting) where
  started := by
    simp [Happening.fetch?, order.started, List.range'_concat, Nat.add_comm]
  arrived := by
    have moved : (past.filterMap Happening.arrival? ++ (q.started + 1) :: waiting).Perm
        ((q.started + 1) :: (past.filterMap Happening.arrival? ++ waiting)) := List.perm_middle
    have last : List.range' 1 (q.started + 1) = List.range' 1 q.started ++ [q.started + 1] := by
      rw [List.range'_concat, Nat.one_mul, Nat.add_comm]
    simp only [List.filterMap_append, List.filterMap_cons, Happening.arrival?, List.filterMap_nil,
      List.append_nil, last]
    exact moved.trans ((order.arrived.cons _).trans (List.perm_append_singleton _ _).symm)
  judged := order.judged.concat rfl
  settled := by simp [Happening.settled?, Happening.arrival?, List.filterMap_cons, order.settled]
  increasing := by simpa [Happening.callback?, List.filterMap_cons] using order.increasing
  delivered := by simpa [Happening.callback?, List.filterMap_cons] using order.delivered
  active := by simpa using order.active
  rows := by simpa [Happening.update?, List.filterMap_cons] using order.rows
  lastError := by simpa [Happening.callback?, List.filterMap_cons] using order.lastError

theorem accept (order : InOrder key q past (ticket :: waiting)) (active : q.active = true)
    (new : q.delivered ≤ ticket) :
    InOrder key (q.take ticket result)
      (past ++ [.arrived key ticket result, .callback key ticket q.label result]) waiting := by
  obtain ⟨block, shape⟩ : ∃ block, block =
    [Happening.arrived key ticket result, .callback key ticket q.label result] := ⟨_, rfl⟩
  have later : q.delivered < ticket := Nat.lt_of_le_of_ne new order.waiting_ne.symm
  have fetches : block.filterMap Happening.fetch? = [] := by subst shape; cases result <;> rfl
  have arrivals : block.filterMap Happening.arrival? = [ticket] := by subst shape; cases result <;> rfl
  have settles : block.filterMap Happening.settled? = [ticket] := by subst shape; cases result <;> rfl
  have calls : block.filterMap Happening.callback? = [(ticket, result)] := by
    subst shape; cases result <;> rfl
  have kept : .queryDisposed key ∉ block := by
    subst shape; cases result <;> simp [Happening.callback]
  rw [← shape]
  exact {
    started := by
      rw [List.filterMap_append, fetches, List.append_nil, Query.started_take]
      exact order.started
    arrived := by
      rw [List.filterMap_append, arrivals, List.append_assoc, Query.started_take]
      exact order.arrived
    judged := by
      rw [Query.label_take, shape]
      refine order.judged.settle (by cases result <;> rfl) (.inr ⟨fun late => ?_, rfl⟩)
      exact absurd (order.late_iff.mp late active) (Nat.not_lt.mpr new)
    settled := by
      rw [List.filterMap_append, List.filterMap_append, settles, arrivals, order.settled]
    increasing := by
      rw [List.filterMap_append, calls, List.map_append, List.pairwise_append]
      refine ⟨order.increasing, by simp, ?_⟩
      intro earlier member latest last
      obtain ⟨call, called, rfl⟩ := List.mem_map.mp member
      rw [List.mem_singleton.mp last]
      exact Nat.lt_of_le_of_lt (order.le_delivered called) later
    delivered := by
      rw [List.filterMap_append, calls, List.getLast?_concat]
      exact Query.delivered_take ..
    active := by
      rw [Query.active_take, order.active, List.mem_append, not_or]
      exact ⟨fun former => ⟨former, kept⟩, And.left⟩
    rows := by
      rw [List.filterMap_append, shape]
      cases result with
      | ok rows => simp [Query.take, Happening.callback, Happening.update?, List.filterMap_cons]
      | error e =>
        simpa [Query.take, Happening.callback, Happening.update?, List.filterMap_cons] using order.rows
    lastError := by
      intro e
      rw [List.filterMap_append, calls, List.getLast?_concat]
      cases result <;> simp [Query.take] }

theorem discard (order : InOrder key q past (ticket :: waiting))
    (late : q.active = true → ticket < q.delivered) :
    InOrder key q (past ++ [.arrived key ticket result, .discarded key ticket]) waiting where
  started := by simpa [Happening.fetch?, List.filterMap_cons] using order.started
  arrived := by simpa [Happening.arrival?, List.filterMap_cons] using order.arrived
  judged := order.judged.settle rfl (.inl ⟨order.late_iff.mpr late, rfl⟩)
  settled := by simp [Happening.settled?, Happening.arrival?, List.filterMap_cons, order.settled]
  increasing := by simpa [Happening.callback?, List.filterMap_cons] using order.increasing
  delivered := by simpa [Happening.callback?, List.filterMap_cons] using order.delivered
  active := by simpa using order.active
  rows := by simpa [Happening.update?, List.filterMap_cons] using order.rows
  lastError := by simpa [Happening.callback?, List.filterMap_cons] using order.lastError

theorem dispose (order : InOrder key q past waiting) :
    InOrder key { q with active := false } (past ++ [.queryDisposed key]) waiting where
  started := by simpa [Happening.fetch?, List.filterMap_cons] using order.started
  arrived := by simpa [Happening.arrival?, List.filterMap_cons] using order.arrived
  judged := order.judged.concat rfl
  settled := by simp [Happening.settled?, Happening.arrival?, List.filterMap_cons, order.settled]
  increasing := by simpa [Happening.callback?, List.filterMap_cons] using order.increasing
  delivered := by simpa [Happening.callback?, List.filterMap_cons] using order.delivered
  active := by simp
  rows := by simpa [Happening.update?, List.filterMap_cons] using order.rows
  lastError := by simpa [Happening.callback?, List.filterMap_cons] using order.lastError

end InOrder

/-! ## Runs -/

/-- A ledger is in order: as long as there is no query, nothing has happened to it. -/
def Ledger.Kept (key : Nat) : Ledger → Prop
  | ⟨none, trail, awaited⟩ => trail = [] ∧ awaited = []
  | ⟨some q, trail, awaited⟩ => InOrder key q trail.reverse awaited

theorem Ledger.Step.kept {key : Nat} {ledger ledger' : Ledger} (step : Ledger.Step key ledger ledger')
    (kept : ledger.Kept key) : ledger'.Kept key := by
  cases step with
  | opened active rows lastError started delivered own =>
    obtain ⟨rfl, rfl⟩ := kept
    exact .opened active rows lastError started delivered
  | started active =>
    simpa [Ledger.Kept] using InOrder.start kept
  | accepted result active new =>
    simpa [Ledger.Kept] using InOrder.accept kept active new
  | discarded result late =>
    simpa [Ledger.Kept] using InOrder.discard kept late
  | disposed active =>
    simpa [Ledger.Kept] using InOrder.dispose kept
  | lost => simp [Ledger.Kept] at kept

theorem Ledger.Steps.kept {key : Nat} {ledger ledger' : Ledger}
    (steps : Ledger.Steps key ledger ledger') (kept : ledger.Kept key) : ledger'.Kept key := by
  induction steps with
  | refl => exact kept
  | tail _ step ih => exact step.kept ih

namespace Session

variable {σ : Type} {backend : Backend σ}

theorem Reachable.inOrder {p : Progress σ} (reachable : Reachable backend p) {key : Nat} {q : Query}
    (query : (p.1.queries[key]?).map Query.bare = some q) :
    InOrder key q (p.1.trail (.query key)).reverse (awaited key p.2) := by
  have kept : (Session.ledger key p).Kept key := (reachable.ledger key).kept ⟨rfl, rfl⟩
  rwa [Session.ledger, ledgerOf, query] at kept

/-- At every point of every run, each query is in order with its past: whatever the storage answers,
and however its fetches nest. -/
theorem query_inOrder {s : Session σ} {tasks : List Task} (reachable : Reachable backend (s, tasks))
    {key : Nat} {q : Query} (query : s.queries[key]? = some q) :
    InOrder key q (s.trail (.query key)).reverse (awaited key tasks) := by
  have order : InOrder key q.bare (s.trail (.query key)).reverse (awaited key tasks) :=
    reachable.inOrder (congrArg (Option.map Query.bare) query)
  -- The plan of its callbacks is all that a query and its bare copy differ in.
  exact { order with }

/-- A query whose second fetch is overtaken by a third one, which starts inside of it and fails. -/
def overtaken : Progress Unit :=
  play .mute 40 (.start () true 0, []) [
    .openQuery "t" [] (.value ⟨[]⟩) (.value ⟨[]⟩) "q" [],
    .hook .query .before [.reply [.fail "gone"], .refresh "q"],
    .refresh "q"]

theorem overtaken_inOrder : Reachable Backend.mute (overtaken.1, overtaken.2) ∧
    ∃ q, overtaken.1.queries[0]? = some q ∧ q.lastError = some (.storage "gone") ∧
      (overtaken.1.trail (.query 0)).head? = some (.discarded 0 2) ∧
      InOrder 0 q (overtaken.1.trail (.query 0)).reverse (awaited 0 overtaken.2) := by
  have reachable : Reachable Backend.mute (overtaken.1, overtaken.2) := reachable_play ..
  exact ⟨reachable, _, rfl, rfl, rfl, query_inOrder reachable rfl⟩

end Session

end LiveTable
