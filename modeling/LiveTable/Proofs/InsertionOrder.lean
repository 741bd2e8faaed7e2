import LiveTable.Row
import Mathlib.Data.List.Dedup
import Mathlib.Data.List.Forall2

/-!
# Insertion order

Rows and column lists are maps that are built by insertions. The names of such a map are the inserted names
in the order of their first insertions, and each has the value of its last insertion. An insertion changes the
value of one name and moves none.
-/

namespace LiveTable

namespace Ordered

variable {α : Type} {m m' : Ordered α} {name : String} {value : α} {inserted : List (String × α)}

/-- What a map holds when entries were inserted one after the other. -/
structure Holds (m : Ordered α) (inserted : List (String × α)) : Prop where
  once : m.names.Nodup
  order : m.names = (inserted.map Prod.fst).eraseDups
  last : ∀ name value, m.get? name = some value ↔
    ∃ before after, inserted = before ++ (name, value) :: after ∧ name ∉ after.map Prod.fst
  absent : ∀ name, m.get? name = none ↔ name ∉ inserted.map Prod.fst
  aligned : m.names.length = m.size ∧ m.values.length = m.size ∧
    ∀ i : Nat, m.values[i]? = m.names[i]?.bind m.get?

/-- What one insertion makes of a map. -/
structure Sets (m : Ordered α) (name : String) (value : α) (m' : Ordered α) : Prop where
  own : m'.get? name = some value
  others : ∀ other, other ≠ name → m'.get? other = m.get? other
  places : ∀ (i : Nat) (n : String), m.names[i]? = some n → m'.names[i]? = some n

/-! ## One insertion -/

theorem names_insert (m : Ordered α) (name : String) (value : α) :
    (m.insert name value).names = if name ∈ m.names then m.names else m.names ++ [name] :=
  names_place name value m.entries

theorem exchange_eq (m : Ordered α) (name : String) (value : α) :
    m.exchange name value = (m.get? name, m.insert name value) := by
  have swapped := swap_eq name value m.entries
  apply Prod.ext
  · show (swap name value m.entries).1 = m.get? name
    rw [swapped, get?]
  · apply Ordered.ext
    show (swap name value m.entries).2 = place name value m.entries
    rw [swapped]

theorem sets_insert (m : Ordered α) (name : String) (value : α) : Sets m name value (m.insert name value) where
  own := by rw [get?_insert, if_pos rfl]
  others := by
    intro other different
    rw [get?_insert, if_neg (Ne.symm different)]
  places := by
    intro i n here
    rw [names_insert]
    split
    · exact here
    · rw [List.getElem?_append_left (List.getElem?_eq_some_iff.mp here).1]
      exact here

/-! ## Names and values -/

theorem get?_of_entries {before after : List (String × α)} (split : m.entries = before ++ (name, value) :: after) :
    m.get? name = some value := by
  have apart := m.nodup
  rw [split, List.map_append, List.map_cons, List.nodup_append] at apart
  have earlier : before.find? (·.1 = name) = none := by
    rw [List.find?_eq_none]
    intro e member
    have other := apart.2.2 e.1 (List.mem_map_of_mem member) name (List.mem_cons_self ..)
    simpa using other
  rw [get?, split, List.find?_append, earlier]
  simp

/-- The value of a name stands where the name stands. -/
theorem values_aligned (m : Ordered α) (i : Nat) : m.values[i]? = m.names[i]?.bind m.get? := by
  rw [values, names, List.getElem?_map, List.getElem?_map]
  cases entry : m.entries[i]? with
  | none => rfl
  | some e =>
    have split : m.entries = m.entries.take i ++ (e.1, e.2) :: m.entries.drop (i + 1) := by
      obtain ⟨bound, rfl⟩ := List.getElem?_eq_some_iff.mp entry
      rw [← List.drop_eq_getElem_cons bound, List.take_append_drop]
    simp [get?_of_entries split]

/-- Maps are equal if they have the same names in the same order, with the same values. -/
theorem ext_get? (names : m.names = m'.names) (values : ∀ name, m.get? name = m'.get? name) : m = m' := by
  have beside : m.values = m'.values := by
    apply List.ext_getElem?
    intro i
    rw [values_aligned, values_aligned, names, funext values]
  apply Ordered.ext
  apply List.ext_getElem?
  intro i
  have first := congrArg (·[i]?) names
  have second := congrArg (·[i]?) beside
  simp only [Ordered.names, Ordered.values, List.getElem?_map] at first second
  cases here : m.entries[i]? <;> cases there : m'.entries[i]? <;>
    simp_all [Prod.ext_iff]

/-! ## Insertions one after the other -/

theorem holds_empty : Holds (empty : Ordered α) [] where
  once := List.nodup_nil
  order := rfl
  last := by simp [empty, get?]
  absent := by simp [empty, get?]
  aligned := ⟨rfl, rfl, values_aligned empty⟩

/-- An entry stands last of its name among more entries exactly if it is the new one, or stood last of another
name. -/
theorem last_concat_iff {sought : String} {v : α} :
    (∃ before after, inserted ++ [(name, value)] = before ++ (sought, v) :: after ∧ sought ∉ after.map Prod.fst) ↔
      (name = sought ∧ value = v) ∨ name ≠ sought ∧
        ∃ before after, inserted = before ++ (sought, v) :: after ∧ sought ∉ after.map Prod.fst := by
  constructor
  · rintro ⟨before, after, split, last⟩
    rcases List.eq_nil_or_concat' after with rfl | ⟨after, e, rfl⟩
    · obtain ⟨-, same⟩ := List.append_inj' split rfl
      cases same
      exact .inl ⟨rfl, rfl⟩
    · rw [← List.cons_append, ← List.append_assoc] at split
      obtain ⟨rfl, same⟩ := List.append_inj' split rfl
      cases same
      simp only [List.map_append, List.mem_append, not_or] at last
      refine .inr ⟨?_, before, after, rfl, last.1⟩
      rintro rfl
      exact last.2 (List.mem_singleton_self _)
  · rintro (⟨rfl, rfl⟩ | ⟨other, before, after, rfl, last⟩)
    · exact ⟨inserted, [], rfl, List.not_mem_nil⟩
    · refine ⟨before, after ++ [(name, value)], by simp, ?_⟩
      simp only [List.map_append, List.mem_append, not_or]
      exact ⟨last, by simpa using Ne.symm other⟩

/-- One more insertion. -/
theorem Holds.insert (holds : Holds m inserted) (name : String) (value : α) :
    Holds (m.insert name value) (inserted ++ [(name, value)]) where
  once := (m.insert name value).nodup
  order := by
    have member : name ∈ m.names ↔ name ∈ inserted.map Prod.fst := by rw [holds.order, List.mem_eraseDups]
    rw [names_insert, List.map_append, List.eraseDups_append, ← holds.order]
    by_cases known : name ∈ m.names
    · simp [known, List.removeAll, member.mp known]
    · have new : name ∉ inserted.map Prod.fst := fun here => known (member.mpr here)
      have alone : [name].eraseDups = [name] := rfl
      simp [known, List.removeAll, new, alone]
  last := by
    intro sought v
    rw [last_concat_iff, get?_insert]
    by_cases here : name = sought
    · simp [here]
    · simp [here, holds.last]
  absent := by
    intro sought
    rw [get?_insert]
    by_cases here : name = sought
    · simp [here]
    · simp [here, Ne.symm here, holds.absent]
  aligned := ⟨by simp [names, size], by simp [values, size], values_aligned _⟩

theorem Holds.foldl {more : List (String × α)} (holds : Holds m inserted) :
    Holds (more.foldl (fun m e => m.insert e.1 e.2) m) (inserted ++ more) := by
  induction more generalizing m inserted with
  | nil => simpa using holds
  | cons e rest ih => simpa using ih (holds.insert e.1 e.2)

/-- A map holds what was inserted exactly if it is the map of these entries. -/
theorem holds_iff : Holds m inserted ↔ m = ofList inserted := by
  have made : Holds (ofList inserted) inserted := holds_empty.foldl
  constructor
  · intro holds
    apply ext_get? (holds.order.trans made.order.symm)
    intro name
    cases found : m.get? name with
    | none => exact ((made.absent name).mpr ((holds.absent name).mp found)).symm
    | some v => exact ((made.last name v).mpr ((holds.last name v).mp found)).symm
  · rintro rfl
    exact made

/-- All entries are kept exactly if no two have one name. -/
theorem entries_ofList_iff : (ofList inserted).entries = inserted ↔ (inserted.map Prod.fst).Nodup := by
  constructor
  · intro same
    rw [← same]
    exact (ofList inserted).nodup
  · intro apart
    exact entries_foldl_insert empty inserted (by simpa [empty] using apart)

/-- A map with a place for each of the entries keeps them all. -/
theorem entries_of_size (size : (ofList inserted).entries.length = inserted.length) :
    (ofList inserted).entries = inserted := by
  have holds : Holds (ofList inserted) inserted := holds_iff.mpr rfl
  have same : (ofList inserted).names.Perm (inserted.map Prod.fst).dedup := by
    rw [List.perm_ext_iff_of_nodup holds.once (List.nodup_dedup _)]
    intro name
    rw [holds.order, List.mem_eraseDups, List.mem_dedup]
  have length : (inserted.map Prod.fst).dedup.length = (inserted.map Prod.fst).length := by
    rw [← same.length_eq, names, List.length_map, List.length_map, size]
  rw [entries_ofList_iff, ← List.dedup_eq_self]
  exact (List.dedup_sublist _).eq_of_length length

end Ordered

/-! ## Rows of documents -/

namespace Row

theorem entriesOfJson?_eq_some_iff {members : List (String × Json)} {entries : List (String × Value)} :
    entriesOfJson? members = some entries ↔
      List.Forall₂ (fun m e => e.1 = m.1 ∧ Value.ofJson? m.2 = some e.2) members entries := by
  induction members generalizing entries with
  | nil => simp [entriesOfJson?, eq_comm]
  | cons m rest ih =>
    obtain ⟨name, json⟩ := m
    simp only [entriesOfJson?, Option.bind_eq_bind, Option.bind_eq_some_iff, List.forall₂_cons_left_iff, ih]
    constructor
    · rintro ⟨v, value, others, rest, same⟩
      cases same
      exact ⟨(name, v), others, ⟨rfl, value⟩, rest, rfl⟩
    · rintro ⟨⟨n, v⟩, others, ⟨rfl, value⟩, rest, rfl⟩
      exact ⟨v, value, others, rest, rfl⟩

end Row

/-- Maps keep the order of insertions. After any insertions into a map of given entries, and so into an empty
one, no name occurs twice, the names stand in the order of their first insertions, each has the value of its last
insertion, and names and values stand side by side. An insertion tells the value that the name had before; it
changes the value of no other name and the place of none. The row of a document is the map of the members, all of
which must be scalars. -/
theorem insertion_ordered :
    (∀ (α : Type) (begun inserted : List (String × α)),
      Ordered.Holds (inserted.foldl (fun m e => m.insert e.1 e.2) (.ofList begun)) (begun ++ inserted)) ∧
    (∀ (α : Type) (m : Ordered α) (name : String) (value : α),
      m.exchange name value = (m.get? name, m.insert name value) ∧
        Ordered.Sets m name value (m.insert name value)) ∧
    ∀ (json : Json) (row : Row), Row.ofJson? json = some row ↔ ∃ members entries, json = .object members ∧
      List.Forall₂ (fun m e => e.1 = m.1 ∧ Value.ofJson? m.2 = some e.2) members entries ∧
        row = .ofList entries := by
  refine ⟨fun α begun inserted => (Ordered.holds_iff.mpr rfl).foldl, fun α m name value =>
    ⟨Ordered.exchange_eq m name value, Ordered.sets_insert m name value⟩, fun json row => ?_⟩
  cases json with
  | object members =>
    rw [Row.ofJson?, Option.map_eq_some_iff]
    constructor
    · rintro ⟨entries, read, rfl⟩
      exact ⟨members, entries, rfl, Row.entriesOfJson?_eq_some_iff.mp read, rfl⟩
    · rintro ⟨_, entries, same, values, rfl⟩
      cases same
      exact ⟨entries, Row.entriesOfJson?_eq_some_iff.mpr values, rfl⟩
  | _ => simp [Row.ofJson?]

example : ((Ordered.ofList [("size", 1), ("title", 2)]).exchange "size" 3).1 = some 1 ∧
    ((Ordered.ofList [("size", 1), ("title", 2)]).exchange "size" 3).2.entries = [("size", 3), ("title", 2)] := by
  decide

end LiveTable
