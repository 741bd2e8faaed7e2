import LiveTable.Proofs.Conditions
import LiveTable.Proofs.Documents
import LiveTable.Proofs.Matching
import Mathlib.Data.List.Flatten
import Mathlib.Data.List.Perm.Basic

/-!
# Conditions that are overwritten

The text of a filter may repeat a field, or an operator at a field. Reading merges the members of one name,
and the last gives the value, so of the conditions that the text writes only those are read that no later
member overwrites. The records that the filter selects meet these conditions, and need not meet the others.
-/

namespace LiveTable

namespace Json

variable {members before : List (String × Json)}

/-- The members whose names do not occur again behind them. -/
def lasts : List (String × Json) → List (String × Json)
  | [] => []
  | (name, item) :: rest => if name ∈ rest.map Prod.fst then lasts rest else (name, item) :: lasts rest

theorem lasts_sublist (members : List (String × Json)) : (lasts members).Sublist members := by
  induction members with
  | nil => exact .slnil
  | cons first rest ih =>
    unfold lasts
    split
    · exact ih.cons _
    · exact ih.cons_cons _

theorem lasts_ne_nil (some : members ≠ []) : lasts members ≠ [] := by
  induction members with
  | nil => exact absurd rfl some
  | cons first rest ih =>
    unfold lasts
    split
    · rename_i again
      obtain ⟨m, member, -⟩ := List.mem_map.mp again
      exact ih (List.ne_nil_of_mem member)
    · exact List.cons_ne_nil _ _

/-- Of members with different names none is overwritten. -/
theorem lasts_of_nodup (different : (members.map Prod.fst).Nodup) : lasts members = members := by
  induction members with
  | nil => rfl
  | cons first rest ih =>
    obtain ⟨new, others⟩ := List.nodup_cons.mp different
    rw [lasts, if_neg new, ih others]

/-- Placing a name takes its old member away and puts a new one there, wherever it then stands. -/
theorem place_perm (name : String) (item : Json) (different : (before.map Prod.fst).Nodup) :
    (Ordered.place name item before).Perm (before.filter (·.1 ≠ name) ++ [(name, item)]) := by
  induction before with
  | nil => exact .refl _
  | cons first rest ih =>
    obtain ⟨new, others⟩ := List.nodup_cons.mp different
    by_cases same : first.1 = name
    · have kept : rest.filter (·.1 ≠ name) = rest := by
        refine List.filter_eq_self.mpr fun m member => ?_
        have other : m.1 ≠ first.1 := fun again => new (again ▸ List.mem_map_of_mem member)
        simpa [same] using other
      rw [Ordered.place, if_pos same, List.filter_cons_of_neg (by simpa using same), kept, same]
      exact (List.perm_append_singleton _ _).symm
    · rw [Ordered.place, if_neg same, List.filter_cons_of_pos (by simpa using same)]
      exact (ih others).cons first

/-- Merging keeps what no new member overwrites, and of the new members the last of each name. -/
theorem mergedMembers_perm (different : (before.map Prod.fst).Nodup) :
    (mergedMembers before members).Perm (before.filter (·.1 ∉ members.map Prod.fst) ++
      (lasts members).map (Prod.map id merged)) := by
  induction members generalizing before with
  | nil => simp [mergedMembers, lasts]
  | cons first rest ih =>
    obtain ⟨name, item⟩ := first
    rw [mergedMembers]
    refine (ih (Ordered.nodup_place name (merged item) before different)).trans ?_
    have placed := (place_perm name (merged item) different).filter
      fun m => decide (m.1 ∉ rest.map Prod.fst)
    refine (placed.append_right _).trans ?_
    have kept : (before.filter (·.1 ≠ name)).filter (fun m => decide (m.1 ∉ rest.map Prod.fst)) =
        before.filter (·.1 ∉ ((name, item) :: rest).map Prod.fst) := by
      rw [List.filter_filter]
      refine List.filter_congr fun m _ => ?_
      by_cases same : m.1 = name <;> simp [same]
    rw [List.filter_append, kept, lasts, List.append_assoc]
    refine List.Perm.append_left _ ?_
    by_cases again : name ∈ rest.map Prod.fst
    · rw [if_pos again, List.filter_cons_of_neg (by simpa using again)]
      exact .refl _
    · rw [if_neg again, List.filter_cons_of_pos (by simpa using again)]
      exact .refl _

theorem mergedMembers_nil (members : List (String × Json)) :
    (mergedMembers [] members).Perm ((lasts members).map (Prod.map id merged)) := by
  have merges : (mergedMembers [] members).Perm (_ ++ _) := mergedMembers_perm List.nodup_nil
  rwa [List.filter_nil, List.nil_append] at merges

end Json

namespace Filter

open Json (lasts)

/-- The conditions at a field that no later operator of the same name overwrites. -/
def keptAt (field : String) : Json → List Written
  | .object [] => [.bare field]
  | .object operators => (lasts operators).map fun (key, operand) => .operator field key operand
  | literal => [.literal field literal]

/-- The conditions of a document that no later field or operator of the same name overwrites. -/
def kept : Json → List Written
  | .object fields => (lasts fields).flatMap fun (field, json) => keptAt field json
  | _ => []

/-- No field stands twice in the document, and no operator twice at a field. -/
def Unrepeated : Json → Prop
  | .object fields => (fields.map Prod.fst).Nodup ∧
    ∀ m ∈ fields, ∀ operators, m.2 = .object operators → (operators.map Prod.fst).Nodup
  | _ => True

/-- The condition is true of a record of a table. -/
def Written.Holds (t : Database.Table) (r : Database.Record) (w : Written) : Prop :=
  ∃ c, w.Means c ∧ t.meets r c = true

/-- The condition with its values merged. -/
def Written.merged : Written → Written
  | .literal field json => .literal field json.merged
  | .operator field key operand => .operator field key operand.merged
  | .bare field => .bare field

/-! ## Kept conditions -/

theorem writtenAt_object (field : String) {operators : List (String × Json)} (some : operators ≠ []) :
    writtenAt field (.object operators) = operators.map fun m => .operator field m.1 m.2 := by
  cases operators with
  | nil => exact absurd rfl some
  | cons first rest => rfl

theorem keptAt_object (field : String) {operators : List (String × Json)} (some : operators ≠ []) :
    keptAt field (.object operators) = (lasts operators).map fun m => .operator field m.1 m.2 := by
  cases operators with
  | nil => exact absurd rfl some
  | cons first rest => rfl

theorem keptAt_sublist (field : String) (json : Json) : (keptAt field json).Sublist (writtenAt field json) := by
  cases json with
  | object operators =>
    by_cases bare : operators = []
    · subst bare
      exact .refl _
    · rw [keptAt_object field bare, writtenAt_object field bare]
      exact (Json.lasts_sublist operators).map _
  | _ => exact .refl _

theorem kept_sublist (doc : Json) : (kept doc).Sublist (written doc) := by
  cases doc with
  | object fields =>
    have fewer := (Json.lasts_sublist fields).flatMap fun m => writtenAt m.1 m.2
    exact (List.Sublist.flatMap_right _ fun m _ => keptAt_sublist m.1 m.2).trans fewer
  | _ => exact .slnil

/-- If no name repeats, every condition is kept. -/
theorem kept_of_unrepeated {doc : Json} (unrepeated : Unrepeated doc) : kept doc = written doc := by
  cases doc with
  | object fields =>
    obtain ⟨different, operators⟩ := unrepeated
    rw [kept, Json.lasts_of_nodup different, written]
    refine List.flatMap_congr fun m member => ?_
    obtain ⟨field, json⟩ := m
    cases json with
    | object own =>
      by_cases bare : own = []
      · subst bare
        rfl
      · show keptAt field (.object own) = writtenAt field (.object own)
        rw [keptAt_object field bare, writtenAt_object field bare, Json.lasts_of_nodup (operators _ member _ rfl)]
    | _ => rfl
  | _ => rfl

/-! ## The merged document -/

/-- Merging changes no value of a scalar. -/
theorem denotes_merged {json : Json} {v : Value} : json.merged.Denotes v ↔ json.Denotes v := by
  cases json with
  | array items => exact ⟨nofun, nofun⟩
  | object members => exact ⟨nofun, nofun⟩
  | _ => exact Iff.rfl

/-- Merging changes nothing that a condition means. -/
theorem Written.means_merged {w : Written} {c : Clause} : w.merged.Means c ↔ w.Means c := by
  cases w with
  | literal field json =>
    constructor
    · rintro ⟨value⟩
      exact .literal (denotes_merged.mp value)
    · rintro ⟨value⟩
      exact .literal (denotes_merged.mpr value)
  | operator field key operand =>
    constructor
    · intro means
      cases operand with
      | array items =>
        rw [Written.merged, Json.merged, Json.mergedItems_eq_map] at means
        cases means with
        | compare known value => cases value
        | member known values =>
          rw [List.forall₂_map_left_iff] at values
          simp only [denotes_merged] at values
          exact .member known values
      | object members =>
        cases means with
        | compare known value => cases value
      | _ => exact means
    · intro means
      cases means with
      | compare known value => exact .compare known (denotes_merged.mpr value)
      | member known values =>
        rw [Written.merged, Json.merged, Json.mergedItems_eq_map]
        refine .member known (List.forall₂_map_left_iff.mpr ?_)
        simpa only [denotes_merged] using values
  | bare field => exact Iff.rfl

theorem writtenAt_merged (field : String) (json : Json) :
    (writtenAt field json.merged).Perm ((keptAt field json).map Written.merged) := by
  cases json with
  | object operators =>
    by_cases bare : operators = []
    · subst bare
      exact .refl _
    · have merges := Json.mergedMembers_nil operators
      have some : Json.mergedMembers [] operators ≠ [] := by
        intro none
        rw [none] at merges
        exact Json.lasts_ne_nil bare (List.map_eq_nil_iff.mp merges.nil_eq.symm)
      rw [Json.merged, writtenAt_object field some, keptAt_object field bare, List.map_map]
      refine (merges.map _).trans ?_
      rw [List.map_map]
      exact .refl _
  | _ => exact .refl _

/-- The merged document writes the conditions that are kept. -/
theorem written_merged (doc : Json) : (written doc.merged).Perm ((kept doc).map Written.merged) := by
  cases doc with
  | object fields =>
    rw [Json.merged, written, kept, List.map_flatMap]
    refine ((Json.mergedMembers_nil fields).flatMap_right _).trans ?_
    rw [List.flatMap_map]
    exact List.Perm.flatMap_left _ fun m _ => writtenAt_merged m.1 m.2
  | _ => exact .refl _

/-! ## The filter of a text -/

/-- A condition means one clause. -/
theorem Written.Means.unique {w : Written} {c c' : Clause} (means : w.Means c) (again : w.Means c') : c = c' :=
  Except.ok.inj ((Written.read_eq_ok_iff.mpr means).symm.trans (Written.read_eq_ok_iff.mpr again))

/-- The clauses of a filter, in another order, are those that the kept conditions mean. -/
theorem clauses_of_kept {doc : Json} {f : Filter} (read : ofJson doc.merged = .ok f) :
    ∃ clauses, List.Forall₂ Written.Means (kept doc) clauses ∧ clauses.Perm f.clauses := by
  obtain ⟨clauses, means, perm⟩ :=
    List.perm_comp_forall₂ (written_merged doc).symm (clauses_of_ofJson read).2
  rw [List.forall₂_map_left_iff] at means
  simp only [Written.means_merged] at means
  exact ⟨clauses, means, perm⟩

theorem meetsAll_iff {ws : List Written} {clauses : List Clause} {f : Filter}
    (means : List.Forall₂ Written.Means ws clauses) (perm : clauses.Perm f.clauses) (t : Database.Table)
    (r : Database.Record) : t.meetsAll f r = true ↔ ∀ w ∈ ws, w.Holds t r := by
  rw [Database.Table.meetsAll, List.all_eq_true]
  constructor
  · intro all w member
    obtain ⟨c, clause, mean⟩ := exists_related means member
    exact ⟨c, mean, all c (perm.subset clause)⟩
  · intro all c clause
    obtain ⟨w, member, mean⟩ := exists_related means.flip (perm.symm.subset clause)
    obtain ⟨c', mean', meets⟩ := all w member
    exact mean.unique mean' ▸ meets

theorem filter_json_eq_ok {text : String} {f : Filter} : (Given.json text : Given Filter).filter = .ok f ↔
    ∃ json, Json.read? text = some json ∧ ofJson json = .ok f := by
  have stored {x : Except Error Filter} : storeError x = .ok f ↔ x = .ok f := by
    cases x <;> simp [storeError]
  rw [Given.filter, readJson]
  cases Json.read? text with
  | none =>
    constructor
    · intro accepted
      cases accepted
    · rintro ⟨json, reads, -⟩
      cases reads
  | some json =>
    rw [show (do storeError (ofJson (← Except.ok json)) : Except Failure Filter) = storeError (ofJson json) from rfl,
      stored]
    simp

/-- The text of an accepted filter writes a document, and every condition that it writes and that no later
field or operator of the same name overwrites is one clause of the statement. So if no name repeats, there
are as many clauses as conditions; a condition that is overwritten is no clause. The records that the filter
selects are those that meet the conditions that are kept. -/
theorem kept_conditions {text : String} {f : Filter} (accepted : (Given.json text : Given Filter).filter = .ok f) :
    (∃ doc, Json.Spelled text doc) ∧ ∀ doc, Json.Spelled text doc →
      (kept doc).Sublist (written doc) ∧ (Unrepeated doc → kept doc = written doc) ∧
      (∃ clauses, List.Forall₂ Written.Means (kept doc) clauses ∧ clauses.Perm f.clauses) ∧
      (∀ predicate, Predicate.ofFilter f = .ok predicate → predicate.clauses.length = (kept doc).length) ∧
      ∀ (t : Database.Table) (r : Database.Record),
        t.meetsAll f r = true ↔ ∀ w ∈ kept doc, w.Holds t r := by
  obtain ⟨json, reads, read⟩ := filter_json_eq_ok.mp accepted
  constructor
  · obtain ⟨doc, spelled, -⟩ := Json.read?_eq_some_iff.mp reads
    exact ⟨doc, spelled⟩
  · intro doc spelled
    rw [Json.merged_of_spelled reads spelled] at read
    obtain ⟨clauses, means, perm⟩ := clauses_of_kept read
    refine ⟨kept_sublist doc, kept_of_unrepeated, ⟨clauses, means, perm⟩, ?_, meetsAll_iff means perm⟩
    intro predicate translated
    obtain ⟨-, rfl⟩ := ofFilter_eq_ok.mp translated
    simp only [Predicate.clauses, List.length_map]
    exact (means.length_eq.trans perm.length_eq).symm

/-- A text that writes two conditions on a priority, each at a member of its own. -/
def twice : String := "\x7b\"priority\":\x7b\"$gte\":2\x7d,\"priority\":\x7b\"$lt\":5\x7d\x7d"

/-- The document that it writes. -/
def twiceWritten : Json := .object [("priority", .object [("$gte", .integer 2)]),
  ("priority", .object [("$lt", .integer 5)])]

theorem spelled_twice : Json.Spelled twice twiceWritten := by
  have chars : twice.toList = ['\x7b', '"', 'p', 'r', 'i', 'o', 'r', 'i', 't', 'y', '"', ':', '\x7b', '"', '$',
    'g', 't', 'e', '"', ':', '2', '\x7d', ',', '"', 'p', 'r', 'i', 'o', 'r', 'i', 't', 'y', '"', ':', '\x7b',
    '"', '$', 'l', 't', '"', ':', '5', '\x7d', '\x7d'] := by decide +kernel
  rw [Json.Spelled, chars]
  rfl

/-- The filter that the text is read as. -/
def below : Filter := ⟨[⟨"priority", .compare .lt (.integer 5)⟩]⟩

theorem accepted_twice : (Given.json twice : Given Filter).filter = .ok below := by
  have shallow : twiceWritten.depth ≤ Json.maxDepth := by decide
  exact filter_json_eq_ok.mpr
    ⟨twiceWritten.merged, Json.read?_eq_some_iff.mpr ⟨twiceWritten, spelled_twice, shallow, rfl⟩, rfl⟩

theorem kept_conditions_twice : (Given.json twice : Given Filter).filter = .ok below ∧
    Json.Spelled twice twiceWritten ∧
    kept twiceWritten = [.operator "priority" "$lt" (.integer 5)] ∧
    ∀ (t : Database.Table) (r : Database.Record),
      t.meetsAll below r = true ↔ ∀ w ∈ kept twiceWritten, w.Holds t r :=
  ⟨accepted_twice, spelled_twice, rfl, ((kept_conditions accepted_twice).2 _ spelled_twice).2.2.2.2⟩

/-- Notes by their priorities, and a deletion by the two conditions. -/
def swept : Session.Progress Database := Session.play Database.memoryBackend 20 (.start .inMemory false 1000, []) [
  .createTable "notes" ["priority:integer"],
  .insert "notes" (.value (.ofList [("priority", .integer 1)])),
  .insert "notes" (.value (.ofList [("priority", .integer 3)])),
  .insert "notes" (.value (.ofList [("priority", .integer 7)])),
  .delete "notes" (.json twice)]

/-- A note of the priority one. -/
def minor : Database.Table :=
  ⟨"notes", [.ofDef "priority" (.plain .integer)], [⟨1, [.integer 1]⟩], false, false⟩

/-- The text writes two conditions and is read as one clause. The filter selects a record that does not meet
the other condition, and the deletion takes away a note whose priority is less than two. -/
theorem condition_overwritten :
    (Given.json twice : Given Filter).filter = .ok below ∧ Json.Spelled twice twiceWritten ∧
    written twiceWritten =
      [.operator "priority" "$gte" (.integer 2), .operator "priority" "$lt" (.integer 5)] ∧
    below.clauses.length ≠ (written twiceWritten).length ∧
    (∃ r ∈ minor.records, minor.meetsAll below r = true ∧ ¬ ∀ w ∈ written twiceWritten, w.Holds minor r) ∧
    Session.Later Database.memoryBackend (.start .inMemory false 1000, []) swept ∧
    swept.1.storage.content.tables.map (·.records) = [[⟨3, [.integer 7, .integer 1000]⟩]] := by
  refine ⟨accepted_twice, spelled_twice, rfl, by decide, ?_, Session.later_play .., by decide +kernel⟩
  refine ⟨⟨1, [.integer 1]⟩, List.mem_singleton_self _, by decide +kernel, fun all => ?_⟩
  obtain ⟨c, means, meets⟩ := all _ (List.mem_cons_self ..)
  have clause : Written.Means (.operator "priority" "$gte" (.integer 2))
      ⟨"priority", .compare .ge (.integer 2)⟩ := .compare (by simp [operatorKeys]) (.integer 2)
  rw [means.unique clause] at meets
  exact absurd meets (by decide +kernel)

end Filter

end LiveTable
