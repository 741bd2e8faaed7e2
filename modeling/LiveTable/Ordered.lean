/-!
# Maps in insertion order

A map from names to values that keeps the order in which its names were first inserted. Inserting
a name that is present replaces its value where it stands; a new name goes to the end. No name
occurs twice, and that is part of the type.
-/

namespace LiveTable

/-- Entries in order of the first insertion of their names. -/
@[ext]
structure Ordered (α : Type) where
  entries : List (String × α)
  nodup : (entries.map Prod.fst).Nodup

namespace Ordered

variable {α : Type}

instance [DecidableEq α] : DecidableEq (Ordered α) := fun a b =>
  if h : a.entries = b.entries then
    isTrue (by cases a; cases b; cases h; rfl)
  else isFalse (fun e => h (e ▸ rfl))

/-- The entries with one value replaced where its name stands, or added at the end. -/
def place (name : String) (value : α) : List (String × α) → List (String × α)
  | [] => [(name, value)]
  | (n, v) :: rest => if n = name then (n, value) :: rest else (n, v) :: place name value rest

/-- Placing a name keeps the names, or adds it at the end if it is new. -/
theorem names_place (name : String) (value : α) (l : List (String × α)) :
    (place name value l).map Prod.fst =
      if name ∈ l.map Prod.fst then l.map Prod.fst else l.map Prod.fst ++ [name] := by
  induction l with
  | nil => simp [place]
  | cons e rest ih =>
    obtain ⟨n, v⟩ := e
    by_cases h : n = name
    · simp [place, h]
    · have h' : ¬ name = n := fun e => h e.symm
      by_cases m : name ∈ rest.map Prod.fst
      · simp [place, h, h', ih, m]
      · simp [place, h, h', ih, m]

theorem nodup_place (name : String) (value : α) (l : List (String × α))
    (h : (l.map Prod.fst).Nodup) : ((place name value l).map Prod.fst).Nodup := by
  rw [names_place]
  split
  · exact h
  · rename_i absent
    rw [List.nodup_append]
    exact ⟨h, by simp, by
      intro a ha b hb
      rw [List.mem_singleton] at hb
      rintro rfl
      exact absent (hb ▸ ha)⟩

/-- The map without entries. -/
def empty : Ordered α := ⟨[], by simp⟩

instance : Inhabited (Ordered α) := ⟨empty⟩

/-- The map with a name set to a value. -/
def insert (m : Ordered α) (name : String) (value : α) : Ordered α :=
  ⟨place name value m.entries, nodup_place name value m.entries m.nodup⟩

/-- The value that stands at a name, if there is one, and the entries with another value in its place
or at the end. -/
def swap (name : String) (value : α) : List (String × α) → Option α × List (String × α)
  | [] => (none, [(name, value)])
  | (n, v) :: rest =>
    if n = name then (some v, (n, value) :: rest)
    else
      let (old, rest) := swap name value rest
      (old, (n, v) :: rest)

/-- Swapping a value in is placing it, and the old value is what is found under the name. -/
theorem swap_eq (name : String) (value : α) (l : List (String × α)) :
    swap name value l = ((l.find? (·.1 = name)).map Prod.snd, place name value l) := by
  induction l with
  | nil => rfl
  | cons e rest ih =>
    obtain ⟨n, v⟩ := e
    by_cases h : n = name
    · simp [swap, place, h]
    · simp [swap, place, h, ih]

/-- The map with a name set to a value, and the value that the name had before. -/
def exchange (m : Ordered α) (name : String) (value : α) : Option α × Ordered α :=
  let swapped := swap name value m.entries
  (swapped.1, ⟨swapped.2, by
    simpa only [swapped, swap_eq] using nodup_place name value m.entries m.nodup⟩)

/-- The map that results from inserting entries one by one. -/
def ofList (entries : List (String × α)) : Ordered α :=
  entries.foldl (fun m e => m.insert e.1 e.2) empty

/-- A new name goes to the end. -/
theorem place_absent {name : String} (value : α) {l : List (String × α)}
    (absent : name ∉ l.map Prod.fst) : place name value l = l ++ [(name, value)] := by
  induction l with
  | nil => rfl
  | cons e rest ih =>
    obtain ⟨n, v⟩ := e
    rw [List.map_cons, List.mem_cons, not_or] at absent
    rw [place, if_neg (Ne.symm absent.1), ih absent.2, List.cons_append]

/-- The value of a name. -/
def get? (m : Ordered α) (name : String) : Option α :=
  (m.entries.find? (·.1 = name)).map Prod.snd

/-- The name has a value. -/
def contains (m : Ordered α) (name : String) : Bool := (m.get? name).isSome

/-- The names in order of first insertion. -/
def names (m : Ordered α) : List String := m.entries.map Prod.fst

/-- The values in the order of their names. -/
def values (m : Ordered α) : List α := m.entries.map Prod.snd

/-- Inserting entries with new names adds them at the end. -/
theorem entries_foldl_insert (m : Ordered α) (l : List (String × α))
    (new : ((m.entries ++ l).map Prod.fst).Nodup) :
    (l.foldl (fun m e => m.insert e.1 e.2) m).entries = m.entries ++ l := by
  induction l generalizing m with
  | nil => simp
  | cons e rest ih =>
    have placed : (m.insert e.1 e.2).entries = m.entries ++ [e] := by
      refine place_absent e.2 fun member => ?_
      rw [List.map_append, List.nodup_append] at new
      exact new.2.2 e.1 member e.1 (by simp) rfl
    rw [List.foldl_cons, ih (m.insert e.1 e.2) (by simpa [placed] using new), placed]
    simp

/-- A map is the map of its entries. -/
theorem ofList_entries (m : Ordered α) : ofList m.entries = m :=
  Ordered.ext (entries_foldl_insert empty m.entries (by simpa [empty] using m.nodup))

/-- A map is the map of its names and values. -/
theorem ofList_zip (m : Ordered α) (more : List α) :
    ofList (m.names.zip (m.values ++ more)) = m := by
  have entries : m.names.zip (m.values ++ more) = m.entries := by
    obtain ⟨entries, nodup⟩ := m
    simp only [names, values]
    clear nodup
    induction entries with
    | nil => simp
    | cons e rest ih => simp [ih]
  rw [entries, ofList_entries]

/-- The map without a name. -/
def erase (m : Ordered α) (name : String) : Ordered α :=
  ⟨m.entries.filter fun e => e.1 ≠ name,
    m.nodup.sublist (List.filter_sublist.map Prod.fst)⟩

theorem find?_place (name sought : String) (value : α) (l : List (String × α)) :
    (place name value l).find? (·.1 = sought) =
      if name = sought then some (name, value) else l.find? (·.1 = sought) := by
  induction l with
  | nil => by_cases h : name = sought <;> simp [place, h]
  | cons e rest ih =>
    obtain ⟨n, v⟩ := e
    by_cases same : n = name
    · subst same
      by_cases h : n = sought <;> simp [place, h]
    · rw [place, if_neg same]
      by_cases h : n = sought
      · have other : ¬ name = sought := fun e => same (h.trans e.symm)
        simp [h, other]
      · simp [h, ih]

/-- Inserting sets the value of one name and of no other. -/
theorem get?_insert (m : Ordered α) (name sought : String) (value : α) :
    (m.insert name value).get? sought = if name = sought then some value else m.get? sought := by
  simp only [get?, insert, find?_place]
  split <;> rfl

/-- Erasing takes away one name and no other. -/
theorem get?_erase (m : Ordered α) (name sought : String) :
    (m.erase name).get? sought = if name = sought then none else m.get? sought := by
  simp only [get?, erase, List.find?_filter]
  split
  · rename_i same
    subst same
    simp [List.find?_eq_none]
  · rename_i other
    congr 2
    funext e
    by_cases h : e.1 = sought
    · have different : ¬ sought = name := fun e => other e.symm
      simp [h, different]
    · simp [h]

/-- The number of names. -/
def size (m : Ordered α) : Nat := m.entries.length

/-- No names. -/
def isEmpty (m : Ordered α) : Bool := m.entries.isEmpty

end Ordered

end LiveTable
