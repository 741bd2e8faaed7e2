import LiveTable.Proofs.Conservation
import LiveTable.Proofs.Snapshot
import Mathlib.Data.List.TakeWhile

/-!
# Reactions

A query reacts to a cue by one selection, a watch by one call of its listener. A cue is the opening, the
turn in a publish on the table, or a refresh; once the query or the watch is disposed there is no reaction
any more. A run is told by its marks: what is opened and disposed, the cues, the reactions, and the calls
that the reactions send. Here the marks are produced by a small machine that knows who is there and what is
due; what it keeps is that every cue is followed by its reaction before anything else happens.
-/

namespace LiveTable

/-- What reacts to changes: a reactive query or a watch. -/
inductive Reactor
  | query (spec : QuerySpec)
  | watch (table : String)

/-- A mark of a run. -/
inductive Mark
  /-- A query or a watch is registered. -/
  | opens (observer : Observer) (reactor : Reactor)
  /-- A query is to be refreshed. -/
  | refreshes (observer : Observer)
  /-- A publish begins or ends, or an observer has its turn in it. -/
  | signal (signal : Signal)
  /-- A query starts a fetch, or a watch calls its listener. -/
  | reacts (observer : Observer)
  /-- The selection of a fetch is sent to the storage. -/
  | sends (observer : Observer) (call : Call)
  | disposes (observer : Observer)

/-- The table that is observed. -/
def Reactor.table : Reactor → String
  | .query spec => spec.table
  | .watch table => table

/-- The marks of one reaction. A query sends the selection of its specification, unless a check fails. -/
def Reactor.reaction (observer : Observer) : Reactor → List Mark
  | .query spec =>
    .reacts observer ::
      match Request.select spec with
      | .ok call => [.sends observer call]
      | .error _ => []
  | .watch _ => [.reacts observer]

/-- The marks that call for a reaction: a turn in a publish on the table, and for a query a refresh. -/
inductive Reactor.Cue (observer : Observer) : Reactor → Mark → Prop
  | turn {reactor : Reactor} {event : ChangeEvent} (same : event.table = reactor.table) :
    Cue observer reactor (.signal (.calls event observer))
  | refresh (spec : QuerySpec) : Cue observer (.query spec) (.refreshes observer)

/-- The query or the watch that a mark is about. -/
def Mark.about : Mark → Option Observer
  | .opens observer _ => some observer
  | .refreshes observer => some observer
  | .signal (.calls _ (.listener _)) => none
  | .signal (.calls _ observer) => some observer
  | .signal _ => none
  | .reacts observer => some observer
  | .sends observer _ => some observer
  | .disposes observer => some observer

/-- The publishing that a mark shows. -/
def Mark.signal? : Mark → Option Signal
  | .signal shown => some shown
  | _ => none

/-- The marks about a query or a watch. -/
def marksOf (observer : Observer) (trace : List Mark) : List Mark :=
  trace.filter fun mark => mark.about = some observer

/-- The marks about a query or a watch, from its opening on, when each cue has its reaction at once and
nothing else has one. The flag says whether it is still active; when it is not, cues come too late. -/
inductive Prompt (reactor : Reactor) (observer : Observer) : Bool → List Mark → Prop
  | opened : Prompt reactor observer true (.opens observer reactor :: reactor.reaction observer)
  | cued {marks : List Mark} {cue : Mark} (former : Prompt reactor observer true marks)
    (cued : reactor.Cue observer cue) :
    Prompt reactor observer true (marks ++ cue :: reactor.reaction observer)
  | disposed {marks : List Mark} (former : Prompt reactor observer true marks) :
    Prompt reactor observer false (marks ++ [.disposes observer])
  | late {marks : List Mark} {cue : Mark} (former : Prompt reactor observer false marks)
    (cued : reactor.Cue observer cue) : Prompt reactor observer false (marks ++ [cue])

/-- Who is there, with a flag for the active ones, and the marks that are due next. -/
structure Stage where
  reactor : Observer → Option (Reactor × Bool)
  due : List Mark

/-- The bus lists each observer of a table once, and of the queries and watches those that are active. -/
structure Posted (reactor : Observer → Option (Reactor × Bool)) (bus : Bus Observer) : Prop where
  once : ∀ table, (bus.observers table).Nodup
  active : ∀ observer r active, reactor observer = some (r, active) → ∀ table,
    observer ∈ bus.observers table ↔ r.table = table ∧ active = true
  known : ∀ table, ∀ observer ∈ bus.observers table,
    observer.listens = true ∨ ∃ r active, reactor observer = some (r, active)

/-- One mark. Something else happens only when no reaction is due. -/
inductive Beat : Stage → Mark → Stage → Prop
  | due {reactor : Observer → Option (Reactor × Bool)} {mark : Mark} {rest : List Mark} :
    Beat ⟨reactor, mark :: rest⟩ mark ⟨reactor, rest⟩
  | opens {reactor : Observer → Option (Reactor × Bool)} {observer : Observer} {r : Reactor}
    (new : reactor observer = none) :
    Beat ⟨reactor, []⟩ (.opens observer r)
      ⟨Function.update reactor observer (some (r, true)), r.reaction observer⟩
  | cue {reactor : Observer → Option (Reactor × Bool)} {observer : Observer} {r : Reactor}
    {active : Bool} {mark : Mark} (known : reactor observer = some (r, active))
    (holder : observer.listens = false) (cued : r.Cue observer mark) :
    Beat ⟨reactor, []⟩ mark ⟨reactor, if active then r.reaction observer else []⟩
  | disposes {reactor : Observer → Option (Reactor × Bool)} {observer : Observer} {r : Reactor}
    (known : reactor observer = some (r, true)) :
    Beat ⟨reactor, []⟩ (.disposes observer)
      ⟨Function.update reactor observer (some (r, false)), []⟩
  | begins {reactor : Observer → Option (Reactor × Bool)} {event : ChangeEvent} {bus : Bus Observer}
    (posted : Posted reactor bus) :
    Beat ⟨reactor, []⟩ (.signal (.begins event bus)) ⟨reactor, []⟩
  | hears {reactor : Observer → Option (Reactor × Bool)} {event : ChangeEvent} {key : Nat} :
    Beat ⟨reactor, []⟩ (.signal (.calls event (.listener key))) ⟨reactor, []⟩
  | ends {reactor : Observer → Option (Reactor × Bool)} {event : ChangeEvent} :
    Beat ⟨reactor, []⟩ (.signal (.ends event)) ⟨reactor, []⟩

/-- Any number of marks. -/
inductive Beats : Stage → List Mark → Stage → Prop
  | nil {a : Stage} : Beats a [] a
  | cons {a b c : Stage} {mark : Mark} {marks : List Mark} (beat : Beat a mark b)
    (rest : Beats b marks c) : Beats a (mark :: marks) c

/-- The marks about somebody are in order: there are none of somebody who is not there, and the others
are prompt. -/
def Attended (observer : Observer) : Option (Reactor × Bool) → List Mark → Prop
  | none, marks => marks = []
  | some (reactor, active), marks => Prompt reactor observer active marks

/-- The marks so far, and those that are due, are in order for everyone. -/
def Stage.Tally (a : Stage) (trace : List Mark) : Prop :=
  ∀ observer, Attended observer (a.reactor observer) (marksOf observer (trace ++ a.due))

/-- What is due is the rest of one reaction. -/
def Stage.Owes (a : Stage) : Prop :=
  a.due = [] ∨ ∃ observer r, a.reactor observer = some (r, true) ∧ a.due <:+ r.reaction observer

variable {a b c : Stage} {mark : Mark} {marks more trace : List Mark} {observer : Observer}
  {r r' : Reactor} {active : Bool}

/-! ## Marks about one reactor -/

theorem marksOf_append (observer : Observer) (marks more : List Mark) :
    marksOf observer (marks ++ more) = marksOf observer marks ++ marksOf observer more :=
  List.filter_append ..

/-- Marks that are all about one reactor are kept for it. -/
theorem marksOf_own (own : ∀ mark ∈ marks, mark.about = some observer) :
    marksOf observer marks = marks :=
  List.filter_eq_self.mpr fun mark member => decide_eq_true (own mark member)

/-- Marks that are all about one reactor, or about none, are no matter of another one. -/
theorem marksOf_foreign (foreign : ∀ mark ∈ marks, mark.about ≠ some observer) :
    marksOf observer marks = [] :=
  List.filter_eq_nil_iff.mpr fun mark member => by simpa using foreign mark member

theorem Reactor.about_reaction (r : Reactor) (observer : Observer) :
    ∀ mark ∈ r.reaction observer, mark.about = some observer := by
  intro mark member
  cases r with
  | watch table =>
    rw [List.mem_singleton.mp member]
    rfl
  | query spec =>
    rcases List.mem_cons.mp member with rfl | member
    · rfl
    · cases selected : Request.select spec with
      | error e =>
        rw [selected] at member
        cases member
      | ok call =>
        rw [selected] at member
        rw [List.mem_singleton.mp member]
        rfl

theorem Reactor.Cue.about (cued : r.Cue observer mark) (holder : observer.listens = false) :
    mark.about = some observer := by
  cases cued with
  | turn same =>
    cases observer with
    | listener key => cases holder
    | query key => rfl
    | watch key => rfl
  | refresh spec => rfl

/-! ## What prompt marks say -/

/-- A cue is neither an opening, nor a reaction, nor a disposal. -/
def Mark.isCue : Mark → Bool
  | .refreshes _ => true
  | .signal (.calls ..) => true
  | _ => false

/-- The mark begins a reaction. -/
def Mark.isReaction : Mark → Bool
  | .reacts _ => true
  | _ => false

/-- The mark ends the activity of a query or a watch. -/
def Mark.isDisposal : Mark → Bool
  | .disposes _ => true
  | _ => false

theorem Reactor.Cue.isCue (cued : r.Cue observer mark) : mark.isCue = true := by
  cases cued <;> rfl

theorem Reactor.Cue.plain (cued : r.Cue observer mark) :
    mark.isReaction = false ∧ mark.isDisposal = false := by
  cases cued <;> exact ⟨rfl, rfl⟩

theorem Reactor.Cue.ne_opens (cued : r.Cue observer mark) (r' : Reactor) :
    Mark.opens observer r' ≠ mark := fun same => by
  cases same ▸ cued.isCue

theorem Reactor.Cue.ne_disposes (cued : r.Cue observer mark) : Mark.disposes observer ≠ mark :=
  fun same => by
    cases same ▸ cued.isCue

theorem Reactor.mem_reaction (member : mark ∈ r.reaction observer) :
    mark = .reacts observer ∨ ∃ spec call, r = .query spec ∧ Request.select spec = .ok call ∧
      mark = .sends observer call := by
  cases r with
  | watch table => exact .inl (List.mem_singleton.mp member)
  | query spec =>
    rcases List.mem_cons.mp member with same | member
    · exact .inl same
    · cases selected : Request.select spec with
      | error e =>
        rw [selected] at member
        cases member
      | ok call =>
        rw [selected] at member
        exact .inr ⟨spec, call, rfl, selected, List.mem_singleton.mp member⟩

/-- What is opened is what the account is about. -/
theorem Prompt.opens_iff (prompt : Prompt r observer active marks) :
    .opens observer r' ∈ marks ↔ r' = r := by
  have reaction : .opens observer r' ∉ r.reaction observer := fun member => by
    rcases Reactor.mem_reaction member with same | ⟨spec, call, -, -, same⟩ <;> cases same
  induction prompt with
  | opened => simp [reaction]
  | cued former cued ih =>
    have other := cued.ne_opens r'
    simp [reaction, other, ih]
  | disposed former ih => simp [ih]
  | late former cued ih =>
    have other := cued.ne_opens r'
    simp [other, ih]

/-- Who is inactive was disposed. -/
theorem Prompt.disposes_iff (prompt : Prompt r observer active marks) :
    .disposes observer ∈ marks ↔ active = false := by
  have reaction : .disposes observer ∉ r.reaction observer := fun member => by
    rcases Reactor.mem_reaction member with same | ⟨spec, call, -, -, same⟩ <;> cases same
  induction prompt with
  | opened => simp [reaction]
  | cued former cued ih =>
    have other := cued.ne_disposes
    simp [reaction, other, ih]
  | disposed former ih => simp
  | late former cued ih => simp [ih]

/-- The only calls that are sent are those of the selection. -/
theorem Prompt.sends {call : Call} (prompt : Prompt r observer active marks)
    (sent : .sends observer call ∈ marks) :
    ∃ spec, r = .query spec ∧ Request.select spec = .ok call := by
  have reaction (member : .sends observer call ∈ r.reaction observer) :
      ∃ spec, r = .query spec ∧ Request.select spec = .ok call := by
    rcases Reactor.mem_reaction member with same | ⟨spec, sent, query, selected, same⟩
    · cases same
    · cases same
      exact ⟨spec, query, selected⟩
  induction prompt with
  | opened => exact reaction (by simpa using sent)
  | cued former cued ih =>
    rcases List.mem_append.mp sent with sent | sent
    · exact ih sent
    · rcases List.mem_cons.mp sent with same | sent
      · cases same ▸ cued.isCue
      · exact reaction sent
  | disposed former ih => exact ih (by simpa using sent)
  | late former cued ih =>
    rcases List.mem_append.mp sent with sent | sent
    · exact ih sent
    · cases List.mem_singleton.mp sent ▸ cued.isCue

theorem Attended.sends {entry : Option (Reactor × Bool)} {call : Call}
    (attended : Attended observer entry marks) (sent : .sends observer call ∈ marks) :
    ∃ spec active, entry = some (.query spec, active) ∧ Request.select spec = .ok call := by
  cases entry with
  | none =>
    rw [show marks = [] from attended] at sent
    cases sent
  | some entry =>
    obtain ⟨r, active⟩ := entry
    obtain ⟨spec, rfl, selected⟩ := Prompt.sends attended sent
    exact ⟨spec, active, rfl, selected⟩

/-! ## What the machine keeps -/

theorem Beats.single (beat : Beat a mark b) : Beats a [mark] b := .cons beat .nil

theorem Beats.append (first : Beats a marks b) (later : Beats b more c) :
    Beats a (marks ++ more) c := by
  induction first with
  | nil => exact later
  | cons beat rest ih => exact .cons beat (ih later)

theorem Beats.split (beats : Beats a (marks ++ more) c) :
    ∃ b, Beats a marks b ∧ Beats b more c := by
  induction marks generalizing a with
  | nil => exact ⟨a, .nil, beats⟩
  | cons mark marks ih =>
    cases beats with
    | cons beat rest =>
      obtain ⟨b, first, later⟩ := ih rest
      exact ⟨b, .cons beat first, later⟩

/-- A reactor stays what it is. -/
theorem Beat.keeps (beat : Beat a mark b) (known : a.reactor observer = some (r, active)) :
    ∃ still, b.reactor observer = some (r, still) := by
  cases beat with
  | @opens reactor other _ new =>
    have different : observer ≠ other := fun same => by
      subst same
      cases new.symm.trans known
    exact ⟨active, by simpa [different] using known⟩
  | @disposes reactor other _ there =>
    by_cases same : observer = other
    · subst same
      cases there.symm.trans known
      exact ⟨false, by simp⟩
    · exact ⟨active, by simpa [same] using known⟩
  | _ => exact ⟨active, known⟩

theorem Beats.keeps (beats : Beats a marks b) (known : a.reactor observer = some (r, active)) :
    ∃ still, b.reactor observer = some (r, still) := by
  induction beats generalizing active with
  | nil => exact ⟨active, known⟩
  | cons beat rest ih =>
    obtain ⟨still, there⟩ := beat.keeps known
    exact ih there

/-- The tally after marks that are about one observer: the others have none of them. -/
theorem Stage.Tally.extend {reactor : Observer → Option (Reactor × Bool)} {due : List Mark}
    {entry : Option (Reactor × Bool)} (tally : Stage.Tally ⟨reactor, []⟩ trace)
    (own : ∀ m ∈ mark :: due, m.about = some observer)
    (mine : Attended observer entry (marksOf observer trace ++ mark :: due)) :
    Stage.Tally ⟨Function.update reactor observer entry, due⟩ (trace ++ [mark]) := by
  intro other
  have parts : marksOf other (trace ++ [mark] ++ due) =
      marksOf other trace ++ marksOf other (mark :: due) := by
    rw [List.append_assoc, List.singleton_append, marksOf_append]
  simp only [parts]
  by_cases same : other = observer
  · subst same
    rw [Function.update_self, marksOf_own own]
    exact mine
  · rw [Function.update_of_ne same]
    have foreign : marksOf other (mark :: due) = [] :=
      marksOf_foreign fun m member about => same (Option.some.inj (about.symm.trans (own m member)))
    have earlier := tally other
    rw [foreign, List.append_nil]
    rwa [List.append_nil] at earlier

/-- The tally after a mark that is about nobody. -/
theorem Stage.Tally.aside {reactor : Observer → Option (Reactor × Bool)}
    (tally : Stage.Tally ⟨reactor, []⟩ trace) (aside : mark.about = none) :
    Stage.Tally ⟨reactor, []⟩ (trace ++ [mark]) := by
  intro other
  have foreign : marksOf other [mark] = [] :=
    marksOf_foreign fun m member => by
      rw [List.mem_singleton.mp member, aside]
      exact nofun
  have earlier := tally other
  rw [List.append_nil] at earlier
  simp only [List.append_nil, marksOf_append, foreign]
  exact earlier

/-- A mark keeps the tally. -/
theorem Beat.tally (beat : Beat a mark b) (tally : a.Tally trace) : b.Tally (trace ++ [mark]) := by
  cases beat with
  | due =>
    -- The mark was counted already when it became due.
    simpa [Stage.Tally] using tally
  | @opens reactor observer r new =>
    have before := tally observer
    simp only [new, List.append_nil] at before
    refine tally.extend (fun m member => ?_) ?_
    · rcases List.mem_cons.mp member with rfl | member
      · rfl
      · exact r.about_reaction observer m member
    · rw [before]
      exact .opened
  | @cue reactor observer r active mark known holder cued =>
    have before := tally observer
    simp only [known, List.append_nil] at before
    have stays : reactor = Function.update reactor observer (some (r, active)) :=
      (Function.update_eq_self_iff.mpr known.symm).symm
    rw [stays]
    cases active with
    | true =>
      refine tally.extend (fun m member => ?_) (.cued before cued)
      rcases List.mem_cons.mp member with rfl | member
      · exact cued.about holder
      · exact r.about_reaction observer m member
    | false =>
      refine tally.extend (fun m member => ?_) (.late before cued)
      rw [List.mem_singleton.mp member]
      exact cued.about holder
  | @disposes reactor observer r known =>
    have before := tally observer
    simp only [known, List.append_nil] at before
    refine tally.extend (fun m member => ?_) (.disposed before)
    rw [List.mem_singleton.mp member]
    rfl
  | begins posted => exact tally.aside rfl
  | hears => exact tally.aside rfl
  | ends => exact tally.aside rfl

theorem Beats.tally (beats : Beats a marks b) (tally : a.Tally trace) : b.Tally (trace ++ marks) := by
  induction beats generalizing trace with
  | nil => simpa using tally
  | cons beat rest ih => simpa using ih (beat.tally tally)

theorem Beat.owes (beat : Beat a mark b) (owes : a.Owes) : b.Owes := by
  cases beat with
  | due =>
    rcases owes with none | ⟨observer, r, known, part⟩
    · cases none
    · exact .inr ⟨observer, r, known, (List.suffix_cons ..).trans part⟩
  | @opens reactor observer r new =>
    exact .inr ⟨observer, r, Function.update_self .., List.suffix_refl _⟩
  | @cue reactor observer r active mark known holder cued =>
    cases active with
    | true => exact .inr ⟨observer, r, known, List.suffix_refl _⟩
    | false => exact .inl rfl
  | _ => exact .inl rfl

theorem Beats.owes (beats : Beats a marks b) (owes : a.Owes) : b.Owes := by
  induction beats with
  | nil => exact owes
  | cons beat rest ih => exact ih (beat.owes owes)

/-- What is due to one reactor is the rest of its reaction. -/
theorem Stage.Owes.suffix (owes : a.Owes) (known : a.reactor observer = some (r, active)) :
    marksOf observer a.due <:+ r.reaction observer := by
  rcases owes with none | ⟨other, r', there, part⟩
  · rw [none]
    exact List.nil_suffix
  · have own : ∀ mark ∈ a.due, mark.about = some other :=
      fun mark member => r'.about_reaction other mark (part.subset member)
    by_cases same : observer = other
    · subst same
      cases there.symm.trans known
      rwa [marksOf_own own]
    · rw [marksOf_foreign fun mark member about =>
        same (Option.some.inj (about.symm.trans (own mark member)))]
      exact List.nil_suffix

/-- Nobody is there at first. -/
theorem Stage.tally_empty : Stage.Tally ⟨fun _ => none, []⟩ [] := fun _ => rfl

/-- When nothing is due, who was opened is there, and active unless disposed. -/
theorem Stage.Tally.opened {reactor : Observer → Option (Reactor × Bool)}
    (tally : Stage.Tally ⟨reactor, []⟩ trace) (opened : .opens observer r ∈ trace) :
    ∃ active, reactor observer = some (r, active) ∧ (.disposes observer ∈ trace ↔ active = false) := by
  have present (mark : Mark) (about : mark.about = some observer) :
      mark ∈ marksOf observer trace ↔ mark ∈ trace := by
    simp [marksOf, about]
  have attended : Attended observer (reactor observer) (marksOf observer trace) := by
    simpa using tally observer
  have opened := (present (.opens observer r) rfl).mpr opened
  cases known : reactor observer with
  | none =>
    have nothing : marksOf observer trace = [] := by rwa [known] at attended
    rw [nothing] at opened
    cases opened
  | some entry =>
    obtain ⟨r', active⟩ := entry
    have prompt : Prompt r' observer active (marksOf observer trace) := by rwa [known] at attended
    cases prompt.opens_iff.mp opened
    exact ⟨active, rfl, (present (.disposes observer) rfl).symm.trans prompt.disposes_iff⟩

/-- When a publish begins, its bus lists each observer of the table once, and of the queries and watches
that were opened before those on the table that were not disposed. -/
theorem Beats.snapshot {event : ChangeEvent} {bus : Bus Observer}
    (beats : Beats ⟨fun _ => none, []⟩ (marks ++ .signal (.begins event bus) :: more) c) :
    (bus.observers event.table).Nodup ∧ ∀ observer r, .opens observer r ∈ marks →
      (observer ∈ bus.observers event.table ↔ r.table = event.table ∧ .disposes observer ∉ marks) := by
  obtain ⟨b, before, rest⟩ := beats.split
  have tally : b.Tally marks := by simpa using before.tally Stage.tally_empty
  have owes : b.Owes := before.owes (.inl rfl)
  -- The tally then is that of the marks before, since a publish begins only when nothing is due.
  cases rest with
  | cons beat rest =>
    cases beat with
    | due =>
      -- A reaction has no such mark.
      rcases owes with none | ⟨observer, r, known, part⟩
      · cases none
      · rcases Reactor.mem_reaction (part.subset (List.mem_cons_self ..)) with same | ⟨_, _, _, _, same⟩ <;>
          cases same
    | cue known holder cued => cases cued
    | begins posted =>
      refine ⟨posted.once _, fun observer r opened => ?_⟩
      obtain ⟨active, known, ended⟩ := tally.opened opened
      rw [posted.active observer r active known, ended, Bool.not_eq_false]

/-! ## Numbers -/

/-- A turn of an observer in a publish. -/
def Signal.turns (observer : Observer) : Signal → Bool
  | .calls _ other => other = observer
  | _ => false

/-- The beginning of a publish that has an observer listed. -/
def Signal.lists (observer : Observer) : Signal → Bool
  | .begins event bus => observer ∈ bus.observers event.table
  | _ => false

mutual

/-- In whole publishes an observer has as many turns as there are publishes that list it. -/
theorem Nested.count_turns (observer : Observer) {signals : List Signal} : Nested signals →
    (∀ event bus, .begins event bus ∈ signals → (bus.observers event.table).Nodup) →
    signals.countP (Signal.turns observer) = signals.countP (Signal.lists observer)
  | .nil, _ => rfl
  | @Nested.publish event bus first later round rest, once => by
    have inner := round.count_turns observer fun event bus member =>
      once event bus (List.mem_cons_of_mem _ (List.mem_append_left _ member))
    have outer := rest.count_turns observer fun event bus member =>
      once event bus (List.mem_cons_of_mem _ (List.mem_append_right _ member))
    have listed := (once event bus (List.mem_cons_self ..)).count (a := observer)
    simp only [List.countP_cons, List.countP_append, inner, outer, Signal.turns, Signal.lists, listed,
      decide_eq_true_eq, Bool.false_eq_true, if_false]
    omega

theorem Round.count_turns (observer : Observer) {event : ChangeEvent} {observers : List Observer}
    {signals : List Signal} : Round event observers signals →
    (∀ event bus, .begins event bus ∈ signals → (bus.observers event.table).Nodup) →
    signals.countP (Signal.turns observer) =
      observers.count observer + signals.countP (Signal.lists observer)
  | .ends event, _ => rfl
  | @Round.call event other observers inner later within rest, once => by
    have nested := within.count_turns observer fun event bus member =>
      once event bus (List.mem_cons_of_mem _ (List.mem_append_left _ member))
    have further := rest.count_turns observer fun event bus member =>
      once event bus (List.mem_cons_of_mem _ (List.mem_append_right _ member))
    simp only [List.countP_cons, List.countP_append, List.count_cons, nested, further, Signal.turns,
      Signal.lists, decide_eq_true_eq, beq_iff_eq, Bool.false_eq_true, if_false]
    omega

end

/-- In a run of whole publishes an observer has as many turns as there are publishes that list it. -/
theorem Beats.count_turns (beats : Beats ⟨fun _ => none, []⟩ trace c)
    (nested : Nested (trace.filterMap Mark.signal?)) (observer : Observer) :
    (trace.filterMap Mark.signal?).countP (Signal.turns observer) =
      (trace.filterMap Mark.signal?).countP (Signal.lists observer) := by
  refine nested.count_turns observer fun event bus begins => ?_
  obtain ⟨mark, member, shown⟩ := List.mem_filterMap.mp begins
  cases mark <;> cases shown
  obtain ⟨before, after, rfl⟩ := List.append_of_mem member
  exact beats.snapshot.1

theorem Reactor.count_reaction (r : Reactor) (observer : Observer) :
    (r.reaction observer).countP Mark.isReaction = 1 ∧
      (r.reaction observer).countP Mark.isCue = 0 ∧
      ∀ mark ∈ r.reaction observer, mark.isDisposal = false := by
  cases r with
  | watch table => simp [reaction, Mark.isReaction, Mark.isCue, Mark.isDisposal]
  | query spec =>
    cases selected : Request.select spec <;>
      simp [reaction, selected, Mark.isReaction, Mark.isCue, Mark.isDisposal, List.countP_cons]

/-- The marks before the disposal. -/
def whileActive (marks : List Mark) : List Mark := marks.takeWhile fun mark => !mark.isDisposal

theorem whileActive_eq_self : whileActive marks = marks ↔ ∀ mark ∈ marks, mark.isDisposal = false := by
  simp [whileActive]

theorem whileActive_append (ended : whileActive marks ≠ marks) (more : List Mark) :
    whileActive (marks ++ more) = whileActive marks := by
  rw [whileActive, List.takeWhile_append, if_neg]
  · rfl
  · exact fun whole => ended ((List.takeWhile_prefix _).eq_of_length whole)

/-- There is one reaction to the opening and one to each cue before the disposal. -/
theorem Prompt.count_reactions (prompt : Prompt r observer active marks) :
    marks.countP Mark.isReaction = 1 + (whileActive marks).countP Mark.isCue ∧
      (whileActive marks = marks ↔ active = true) := by
  obtain ⟨one, none, quiet⟩ := r.count_reaction observer
  -- The marks while active are all marks until the disposal, and from then on they stay.
  induction prompt with
  | opened =>
    have whole : whileActive (.opens observer r :: r.reaction observer) = _ :=
      whileActive_eq_self.mpr (List.forall_mem_cons.mpr ⟨rfl, quiet⟩)
    simp [whole, one, none, Mark.isReaction, Mark.isCue]
  | @cued marks cue former cued ih =>
    obtain ⟨count, active⟩ := ih
    have before := whileActive_eq_self.mp (active.mpr rfl)
    obtain ⟨noReaction, undisposed⟩ := cued.plain
    have whole : whileActive (marks ++ cue :: r.reaction observer) = _ :=
      whileActive_eq_self.mpr fun mark member => by
        rcases List.mem_append.mp member with member | member
        · exact before mark member
        · rcases List.mem_cons.mp member with rfl | member
          · exact undisposed
          · exact quiet mark member
    rw [active.mpr rfl] at count
    simp [whole, one, none, noReaction, cued.isCue, count]
    omega
  | @disposed marks former ih =>
    obtain ⟨count, active⟩ := ih
    have before := whileActive_eq_self.mp (active.mpr rfl)
    have part : whileActive (marks ++ [.disposes observer]) = marks := by
      rw [whileActive, List.takeWhile_append_of_pos fun mark member => by simp [before mark member]]
      simp [Mark.isDisposal]
    rw [active.mpr rfl] at count
    simp [part, count, Mark.isReaction]
  | @late marks cue former cued ih =>
    obtain ⟨count, active⟩ := ih
    have ended : whileActive marks ≠ marks := fun whole => by cases active.mp whole
    obtain ⟨noReaction, undisposed⟩ := cued.plain
    rw [whileActive_append ended]
    refine ⟨by simpa [noReaction] using count, ?_⟩
    constructor
    · intro whole
      have shorter := (List.takeWhile_prefix (l := marks) fun mark => !mark.isDisposal).length_le
      have longer := congrArg List.length whole
      simp [whileActive] at longer
      omega
    · intro active
      cases active

end LiveTable
