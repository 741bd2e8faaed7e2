import LiveTable.Proofs.Stamps
import Mathlib.Data.List.Nodup

/-!
# Record numbers

A record is found again by its number. The records of a table stand in the order of their numbers and no
two have one number: a fresh number is greater than all that are in use or at least free, and a number that
is asked for must be free. So it is for every table of the callers, through every statement. An update changes the
records that it found one after the other, and as they are told apart by their numbers, it changes each of
them once and no other.
-/

namespace LiveTable.Database

variable {t : Table} {r : Record} {records : List Record} {c c' : Content} {number : Int64}

/-- The records stand in the order of their numbers, and every record has a number of its own. -/
def Table.Ascending (t : Table) : Prop := t.records.Pairwise fun a b => a.number < b.number

/-- The records of the tables that do not belong to the database itself are in order. -/
def Numbered (c : Content) : Prop := ∀ t ∈ c.tables, isSystemName t.name = false → t.Ascending

/-! ## One more record -/

theorem insertRecord_perm (r : Record) (records : List Record) :
    (insertRecord r records).Perm (r :: records) := by
  induction records with
  | nil => exact .refl _
  | cons head rest ih =>
    unfold insertRecord
    split
    · exact .refl _
    · exact (ih.cons head).trans (.swap ..)

theorem insertRecord_ascending (ascending : records.Pairwise fun a b => a.number < b.number)
    (new : ∀ other ∈ records, other.number ≠ r.number) :
    (insertRecord r records).Pairwise fun a b => a.number < b.number := by
  induction records with
  | nil => simp [insertRecord]
  | cons head rest ih =>
    obtain ⟨least, others⟩ := List.pairwise_cons.mp ascending
    unfold insertRecord
    split
    · rename_i before
      refine List.pairwise_cons.mpr ⟨?_, ascending⟩
      intro other member
      rcases List.mem_cons.mp member with rfl | later
      · exact before
      · exact Int64.lt_trans before (least other later)
    · rename_i after
      have between : head.number < r.number := by
        rw [Int64.not_lt] at after
        exact Int64.lt_of_le_of_ne after (new head (List.mem_cons_self ..))
      refine List.pairwise_cons.mpr ⟨?_, ih others fun other later => new other (List.mem_cons_of_mem _ later)⟩
      intro other member
      rcases mem_insertRecord.mp member with rfl | later
      · exact between
      · exact least other later

/-! ## Numbers of new records -/

/-- Of records in order, the last has the greatest number. -/
theorem Table.Ascending.le_last (ascending : t.Ascending) {last : Int64} (some' : t.lastNumber? = some last) :
    ∀ r ∈ t.records, r.number ≤ last := by
  obtain ⟨r', final, rfl⟩ := Option.map_eq_some_iff.mp some'
  obtain ⟨before, split⟩ := List.getLast?_eq_some_iff.mp final
  intro r member
  rw [split] at member
  rcases List.mem_append.mp member with early | own
  · have order := ascending
    rw [Table.Ascending, split, List.pairwise_append] at order
    exact Int64.le_of_lt (order.2.2 r early r' (List.mem_singleton_self _))
  · rw [List.mem_singleton.mp own]
    exact Int64.le_refl _

theorem lt_succ_of_ne_max {n : Int64} (below : n ≠ maxNumber) : n < n + 1 := by
  have bounded : n.toInt ≠ 2 ^ 63 - 1 := by
    intro same
    apply below
    rw [← Int64.toInt_inj, same]
    decide
  have upper := n.toInt_lt
  have lower := n.le_toInt
  have one : (1 : Int64).toInt = 1 := by decide
  rw [Int64.lt_iff_toInt_lt, Int64.toInt_add, one, Int.bmod_eq_of_le]
  · omega
  · omega
  · omega

theorem freeNumber_ok (free : freeNumber t = .ok number) : ∀ r ∈ t.records, r.number ≠ number := by
  unfold freeNumber at free
  simp only at free
  split at free
  · rename_i n found
    cases free
    simpa using List.find?_some found
  · cases free

/-- No record has a fresh number. -/
theorem Table.Ascending.fresh (ascending : t.Ascending) (fresh : freshNumber c t = .ok number) :
    ∀ r ∈ t.records, r.number ≠ number := by
  have next {used : Int64} (bound : ∀ r ∈ t.records, r.number ≤ used) (below : used ≠ maxNumber) :
      ∀ r ∈ t.records, r.number ≠ used + 1 := fun r member =>
    Int64.ne_of_lt (Int64.lt_of_le_of_lt (bound r member) (lt_succ_of_ne_max below))
  cases last : t.lastNumber? with
  | none =>
    have none : t.records = [] := List.getLast?_eq_none_iff.mp (Option.map_eq_none_iff.mp last)
    simp [none]
  | some last' =>
    have bound := ascending.le_last last
    by_cases growing : t.autoincrement = true
    · have noted : ∀ r ∈ t.records,
          r.number ≤ if c.sequence t.name < last' then last' else c.sequence t.name := by
        intro r member
        split
        · exact bound r member
        · rename_i above
          exact Int64.le_trans (bound r member) (Int64.not_lt.mp above)
      simp only [freshNumber, growing, if_true, last] at fresh
      generalize (if c.sequence t.name < last' then last' else c.sequence t.name) = used at fresh noted
      split at fresh
      · cases fresh
      · rename_i below
        cases fresh
        exact next noted below
    · simp only [freshNumber, growing, last, Bool.false_eq_true, if_false] at fresh
      split at fresh
      · exact freeNumber_ok fresh
      · rename_i below
        cases fresh
        exact next bound below

/-- The number of a record that is inserted is free, or it is fresh. -/
theorem insert_number {s : Statement} {table : String} {columns : List String} {params : List Value}
    (accepted : c.insert s table columns params = .ok (number, c')) : ∃ t, c.findModifiable table = .ok t ∧
      (checkNumber t t.records number = .ok () ∨ freshNumber c t = .ok number) := by
  simp only [Content.insert] at accepted
  split at accepted
  · cases accepted
  · simp only [bind_eq_ok] at accepted
    obtain ⟨t, found, references, -, -, -, accepted⟩ := accepted
    refine ⟨t, found, ?_⟩
    split at accepted
    · rename_i v asked
      obtain ⟨n, -, accepted⟩ := bind_eq_ok.mp accepted
      obtain ⟨-, -, accepted⟩ := bind_eq_ok.mp accepted
      rw [if_pos (by rw [asked]; rfl)] at accepted
      obtain ⟨free, accepted⟩ := check_bind_eq_ok.mp accepted
      obtain ⟨-, -, same⟩ := bind_eq_ok.mp accepted
      cases same
      exact .inl free
    · rename_i none
      obtain ⟨n, fresh, accepted⟩ := bind_eq_ok.mp accepted
      obtain ⟨-, -, accepted⟩ := bind_eq_ok.mp accepted
      rw [if_neg (by rw [none]; simp)] at accepted
      obtain ⟨-, -, same⟩ := bind_eq_ok.mp accepted
      cases same
      exact .inr fresh

theorem checkNumber_eq_ok : checkNumber t records number = .ok () ↔ ∀ r ∈ records, r.number ≠ number := by
  unfold checkNumber
  split
  · rename_i taken
    simpa using taken
  · rename_i free
    simpa using free

/-! ## Updates -/

/-- Records in order are told apart by their numbers. -/
theorem eq_of_number (ascending : records.Pairwise fun a b => a.number < b.number) {a b : Record}
    (here : a ∈ records) (there : b ∈ records) (same : a.number = b.number) : a = b := by
  have apart : (records.map (·.number)).Nodup := by
    rw [List.Nodup, List.pairwise_map]
    exact ascending.imp Int64.ne_of_lt
  exact List.inj_on_of_nodup_map apart here there same

/-- What is left of the records when one of them is taken out. -/
theorem mem_others {r' : Record} : r' ∈ records.filter (fun other => other.number ≠ r.number) ↔
    r' ∈ records ∧ r'.number ≠ r.number := by
  simp

/-- An update replaces each of the records that it found by what the assignments make of it, and leaves
the others. -/
theorem assignAll_perm {given : List (Reference × Value)} {found changed : List Record}
    (ascending : records.Pairwise fun a b => a.number < b.number) (part : ∀ r ∈ found, r ∈ records)
    (once : found.Nodup) (assigns : assignAll t given records found = .ok changed) :
    changed.Pairwise (fun a b => a.number < b.number) ∧
      ∃ assigned, List.Forall₂ (fun r r' => assign t given r = .ok r') found assigned ∧
        changed.Perm (records.filter (· ∉ found) ++ assigned) := by
  induction found generalizing records with
  | nil =>
    cases assigns
    exact ⟨ascending, [], .nil, by simp⟩
  | cons r rest ih =>
    obtain ⟨mine, others⟩ := List.forall_mem_cons.mp part
    obtain ⟨new, once⟩ := List.nodup_cons.mp once
    simp only [assignAll, bind_eq_ok] at assigns
    obtain ⟨r', first, -, -, assigns⟩ := assigns
    obtain ⟨left, shape⟩ : ∃ left, left = records.filter fun other => other.number ≠ r.number := ⟨_, rfl⟩
    have free : ∀ other ∈ left, other.number ≠ r'.number := by
      intro other member
      rw [shape] at member
      by_cases same : r'.number = r.number
      · rw [same]
        exact (mem_others.mp member).2
      · rw [if_pos same] at assigns
        exact checkNumber_eq_ok.mp (check_bind_eq_ok.mp assigns).1 other member
    have later : assignAll t given (insertRecord r' left) rest = .ok changed := by
      rw [← shape] at assigns
      split at assigns
      · obtain ⟨-, -, assigns⟩ := bind_eq_ok.mp assigns
        exact (check_bind_eq_ok.mp assigns).2
      · exact (check_bind_eq_ok.mp assigns).2
    have kept : ∀ other ∈ rest, other ∈ left := by
      intro other member
      rw [shape]
      refine mem_others.mpr ⟨others other member, fun same => new ?_⟩
      rwa [← eq_of_number ascending (others other member) mine same]
    have unmet : r' ∉ rest := fun again => free r' (kept r' again) rfl
    have order : left.Pairwise fun a b => a.number < b.number := shape ▸ ascending.filter _
    obtain ⟨sorted, assigned, pairs, perm⟩ := ih (insertRecord_ascending order free)
      (fun other member => mem_insertRecord.mpr (.inr (kept other member))) once later
    refine ⟨sorted, r' :: assigned, .cons first pairs, perm.trans ?_⟩
    -- What is left without the rest of the found records is what is left without all of them.
    have same : left.filter (· ∉ rest) = records.filter (· ∉ r :: rest) := by
      rw [shape, List.filter_filter]
      refine List.filter_congr fun other member => ?_
      have told : other.number = r.number ↔ other = r :=
        ⟨eq_of_number ascending member mine, congrArg Record.number⟩
      simp [told, Bool.and_comm]
    have front : ((insertRecord r' left).filter (· ∉ rest)).Perm (r' :: records.filter (· ∉ r :: rest)) := by
      have moved := (insertRecord_perm r' left).filter fun other => decide (other ∉ rest)
      rwa [List.filter_cons_of_pos (by simpa using unmet), same] at moved
    exact (front.append_right assigned).trans List.perm_middle.symm

/-! ## Every statement -/

theorem ascending_sublist {kept : List Record} (ascending : t.Ascending) (part : kept.Sublist t.records) :
    Table.Ascending { t with records := kept } := List.Pairwise.sublist part ascending

theorem numbered_setTable (numbered : Numbered c) (ascending : isSystemName t.name = false → t.Ascending) :
    Numbered (c.setTable t) := by
  intro other member proper
  rcases mem_setTable member with rfl | ⟨old, -⟩
  · exact ascending proper
  · exact numbered other old proper

theorem numbered_setSequence (numbered : Numbered c) (table : String) (n : Int64) :
    Numbered (c.setSequence table n) := by
  intro other member proper
  rcases mem_setSequence member with old | ⟨t, -, system, same, -⟩
  · exact numbered other old proper
  · rw [same, system] at proper
    cases proper

/-- A statement that a database accepts leaves the records in order. -/
theorem numbered_executed {db db' : Database} {s : Statement} {params : List Value} {answer : Answer}
    (accepted : db.execute params s = .ok (answer, db')) (numbered : Numbered db.content) :
    Numbered db'.content := by
  have effect := executed accepted
  generalize shape : db'.content = c' at effect
  cases effect with
  | tableKept found => exact numbered
  | tableCreated proper new named declares empty sequences =>
    intro other member proper
    rcases List.mem_append.mp member with front | last
    · rcases List.mem_append.mp front with old | fresh
      · exact numbered other old proper
      · rw [List.mem_singleton.mp fresh, Table.Ascending, empty]
        exact .nil
    · rw [sequences other last]
      exact .nil
  | columnAdded found proper =>
    refine numbered_setTable numbered fun proper => ?_
    exact List.pairwise_map.mpr (numbered _ (find?_proper found proper).1 proper)
  | indexKept found taken => exact numbered
  | indexCreated found proper free => exact numbered
  | tableMissing missing => exact numbered
  | @tableDropped _ dropped found =>
    intro other member proper
    obtain ⟨old, kept, rfl⟩ := List.mem_map.mp member
    obtain ⟨named, -, records⟩ := forgetting_cases dropped old
    rw [named] at proper
    exact List.Pairwise.sublist records (numbered old (List.mem_filter.mp kept).1 proper)
  | @inserted table columns t references number changed _ found resolves puts notes =>
    have fresh (proper : isSystemName t.name = false) : ∀ r ∈ t.records, r.number ≠ number := by
      obtain ⟨⟨n, left⟩, inserts, same⟩ := bind_eq_ok.mp accepted
      cases same
      obtain ⟨t', known, free⟩ := insert_number inserts
      cases found.symm.trans known
      rcases free with free | fresh
      · exact checkNumber_eq_ok.mp free
      · exact (numbered t (findModifiable_ok found).1 proper).fresh fresh
    have put : Numbered changed := by
      subst puts
      refine numbered_setTable numbered fun proper => ?_
      exact insertRecord_ascending (numbered t (findModifiable_ok found).1 proper) (fresh proper)
    rcases notes with rfl | ⟨n, rfl⟩
    · exact put
    · exact numbered_setSequence put t.name n
  | updated found resolves assigns =>
    refine numbered_setTable numbered fun proper => ?_
    have ascending := numbered _ (findModifiable_ok found).1 proper
    refine (assignAll_perm ascending (fun r member => (List.mem_filter.mp member).1) ?_ assigns).1
    exact (ascending.filter _).imp fun less => ne_of_apply_ne Record.number (Int64.ne_of_lt less)
  | deleted found sublist =>
    refine numbered_setTable numbered fun proper => ?_
    exact ascending_sublist (numbered _ (findModifiable_ok found).1 proper) sublist
  | asked reads => exact numbered

theorem numbered_answer {db : Database} (call : Call) (numbered : Numbered db.content) :
    Numbered (db.answer call).2.content := by
  unfold answer
  split
  · rename_i result accepted
    exact numbered_executed accepted numbered
  · exact numbered

end LiveTable.Database

namespace LiveTable.Session

/-- In a run in memory from an empty database the records of every table of the callers stay in order. -/
theorem Later.numbered {db : Database} {p : Progress Database} {scripted : Bool} {now : Int64}
    (run : Later Database.memoryBackend (.start db scripted now, []) p) (empty : db.content = default) :
    Database.Numbered p.1.storage.content := by
  have nothing : Database.Numbered default := fun t none => nomatch none
  refine run.maintains (fun db => Database.Numbered db.content) (.start db scripted now) ?_ ?_ (empty ▸ nothing)
  · intro old new opens _
    cases opens
    exact nothing
  · exact fun db call _ _ => Database.numbered_answer call

end LiveTable.Session
