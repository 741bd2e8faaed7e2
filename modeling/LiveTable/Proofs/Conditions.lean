import LiveTable.CommandLine.Report
import LiveTable.Proofs.Answering
import Mathlib.Data.List.Forall2

/-!
# Conditions in documents

A document writes conditions: a field with a literal, or an operator with its operand at a field. A
filter is read from a document exactly if the document is null or an object whose conditions all mean
something, and then it has one clause for each of them, in their order. Otherwise the first condition
that means nothing decides the error.
-/

namespace LiveTable

/-- Null, a truth value, a number or a text. -/
def Json.isScalar : Json → Bool
  | .array _ | .object _ => false
  | _ => true

/-- What a scalar of a document stands for: a truth value for zero or one, an integer that sixty-four bits
hold for itself, and any other integer for the floating-point number next to it. -/
inductive Json.Denotes : Json → Value → Prop
  | null : Denotes .null .null
  | no : Denotes (.bool false) (.integer 0)
  | yes : Denotes (.bool true) (.integer 1)
  | integer (n : Int64) : Denotes (.integer n.toInt) (.integer n)
  | long {n : Int} (outside : n < -pow2 63 ∨ pow2 63 ≤ n) : Denotes (.integer n) (.real (.ofInt n))
  | real (x : Binary64) : Denotes (.real x) (.real x)
  | text (s : String) : Denotes (.string s) (.text s)

namespace Filter

/-- The keys of operators. -/
def operatorKeys : List (String × Operator) :=
  [("$eq", .compare .eq), ("$gt", .compare .gt), ("$gte", .compare .ge), ("$lt", .compare .lt),
    ("$lte", .compare .le), ("$ne", .compare .ne), ("$like", .compare .like), ("$in", .member .isIn),
    ("$nin", .member .notIn)]

/-- The operands that an operator takes. -/
inductive Operator.Takes : Operator → Json → Prop
  | compare {op : CompareOp} {operand : Json} (scalar : operand.isScalar = true) :
    Takes (.compare op) operand
  | member {op : MemberOp} {items : List Json} (scalars : ∀ item ∈ items, item.isScalar = true) :
    Takes (.member op) (.array items)

/-- What a filter can require of a field. -/
inductive Requirement : Json → Prop
  | literal {json : Json} (scalar : json.isScalar = true) : Requirement json
  | operators {members : List (String × Json)} (some : members ≠ [])
    (fit : ∀ m ∈ members, ∃ op, (m.1, op) ∈ operatorKeys ∧ op.Takes m.2) : Requirement (.object members)

/-- The documents of filters. -/
inductive Document : Json → Prop
  | null : Document .null
  | object {fields : List (String × Json)} (fit : ∀ m ∈ fields, Requirement m.2) :
    Document (.object fields)

/-- A condition as a document writes it. -/
inductive Written
  | literal (field : String) (json : Json)
  | operator (field key : String) (operand : Json)
  /-- An object without operators stands at the field. -/
  | bare (field : String)

/-- The conditions that a document writes at a field. -/
def writtenAt (field : String) : Json → List Written
  | .object [] => [.bare field]
  | .object operators => operators.map fun (key, operand) => .operator field key operand
  | literal => [.literal field literal]

/-- The conditions that a document writes, in its order. -/
def written : Json → List Written
  | .object fields => fields.flatMap fun (field, json) => writtenAt field json
  | _ => []

/-- A written condition means a clause. -/
inductive Written.Means : Written → Clause → Prop
  | literal {field : String} {json : Json} {v : Value} (value : json.Denotes v) :
    Means (.literal field json) ⟨field, .equals v⟩
  | compare {field key : String} {operand : Json} {op : CompareOp} {v : Value}
    (known : (key, .compare op) ∈ operatorKeys) (value : operand.Denotes v) :
    Means (.operator field key operand) ⟨field, .compare op v⟩
  | member {field key : String} {items : List Json} {op : MemberOp} {vs : List Value}
    (known : (key, .member op) ∈ operatorKeys)
    (values : List.Forall₂ Json.Denotes items vs) :
    Means (.operator field key (.array items)) ⟨field, .member op vs⟩

/-- Why a written condition means nothing. The operator is looked at before its operand, and of an
array the first item that is no scalar is told. -/
inductive Written.Offends : Written → Error → Prop
  | literal {field : String} {json : Json} (compound : json.isScalar = false) :
    Offends (.literal field json) (.invalidOperand "$eq" (.notScalar json.write))
  | bare (field : String) : Offends (.bare field) (.invalidOperand field .noOperator)
  | unknown {field key : String} {operand : Json} (unknown : ∀ op, (key, op) ∉ operatorKeys) :
    Offends (.operator field key operand) (.unsupportedOperator key)
  | compound {field key : String} {operand : Json} {op : CompareOp}
    (known : (key, .compare op) ∈ operatorKeys) (compound : operand.isScalar = false) :
    Offends (.operator field key operand) (.invalidOperand key (.notScalar operand.write))
  | notArray {field key : String} {operand : Json} {op : MemberOp}
    (known : (key, .member op) ∈ operatorKeys) (other : ∀ items, operand ≠ .array items) :
    Offends (.operator field key operand) (.invalidOperand key .notArray)
  | item {field key : String} {before : List Json} {item : Json} {after : List Json} {op : MemberOp}
    (known : (key, .member op) ∈ operatorKeys) (scalars : ∀ i ∈ before, i.isScalar = true)
    (compound : item.isScalar = false) :
    Offends (.operator field key (.array (before ++ item :: after)))
      (.invalidOperand key (.notScalar item.write))

/-- The clause that a written condition is read as. -/
def Written.read : Written → Except Error Clause
  | .literal field json => do .ok ⟨field, .equals (← scalar "$eq" json)⟩
  | .operator field key operand => do .ok ⟨field, ← conditionOfJson key operand⟩
  | .bare field => .error (.invalidOperand field .noOperator)

end Filter

/-! ## Reading one after the other -/

section Readings

variable {ε α β γ : Type} {f : α → Except ε β}

theorem mapM_eq_ok {l : List α} {bs : List β} :
    l.mapM f = .ok bs ↔ List.Forall₂ (fun a b => f a = .ok b) l bs := by
  induction l generalizing bs with
  | nil =>
    rw [List.forall₂_nil_left_iff]
    exact ⟨fun h => by cases h; rfl, fun h => by subst h; rfl⟩
  | cons a rest ih =>
    rw [List.mapM_cons, bind_eq_ok, List.forall₂_cons_left_iff]
    constructor
    · rintro ⟨b, first, others⟩
      obtain ⟨bs', later, same⟩ := bind_eq_ok.mp others
      cases same
      exact ⟨b, bs', first, ih.mp later, rfl⟩
    · rintro ⟨b, bs', first, later, rfl⟩
      exact ⟨b, first, bind_eq_ok.mpr ⟨bs', ih.mpr later, rfl⟩⟩

/-- The first failure is the failure of the whole. -/
theorem mapM_eq_error {l : List α} {e : ε} :
    l.mapM f = .error e ↔ ∃ before a after, l = before ++ a :: after ∧
      (∀ b ∈ before, ∃ c, f b = .ok c) ∧ f a = .error e := by
  induction l with
  | nil =>
    constructor
    · intro failed
      cases failed
    · rintro ⟨before, a, after, same, -⟩
      simp at same
  | cons a rest ih =>
    rw [List.mapM_cons]
    cases first : f a with
    | error e' =>
      constructor
      · intro failed
        cases failed
        exact ⟨[], a, rest, rfl, by simp, first⟩
      · rintro ⟨before, b, after, same, passed, failed⟩
        cases before with
        | nil =>
          cases same
          cases first.symm.trans failed
          rfl
        | cons c before =>
          cases same
          obtain ⟨d, ok⟩ := passed a (List.mem_cons_self ..)
          cases first.symm.trans ok
    | ok b =>
      have later : (Except.ok b >>= fun b => rest.mapM f >>= fun bs => pure (b :: bs)) = .error e ↔
          rest.mapM f = .error e := by
        cases rest.mapM f with
        | error e' => exact ⟨fun h => by cases h; rfl, fun h => by cases h; rfl⟩
        | ok bs => exact ⟨nofun, nofun⟩
      rw [later, ih]
      constructor
      · rintro ⟨before, c, after, rfl, passed, failed⟩
        exact ⟨a :: before, c, after, rfl, List.forall_mem_cons.mpr ⟨⟨b, first⟩, passed⟩, failed⟩
      · rintro ⟨before, c, after, same, passed, failed⟩
        cases before with
        | nil =>
          cases same
          cases first.symm.trans failed
        | cons d before =>
          cases same
          exact ⟨before, c, after, rfl, fun b member => passed b (List.mem_cons_of_mem _ member), failed⟩

theorem exists_related {R : α → β → Prop} {l : List α} {bs : List β} (pairs : List.Forall₂ R l bs)
    {a : α} (member : a ∈ l) : ∃ b ∈ bs, R a b := by
  induction pairs with
  | nil => cases member
  | cons related _ ih =>
    rcases List.mem_cons.mp member with rfl | later
    · exact ⟨_, List.mem_cons_self .., related⟩
    · obtain ⟨b, there, relates⟩ := ih later
      exact ⟨b, List.mem_cons_of_mem _ there, relates⟩

/-- Reading rows one after the other and joining what is read is reading the joined rows. -/
theorem mapM_flatMap (f : β → Except ε γ) (g : α → List β) (l : List α) :
    (do .ok (← l.mapM fun a => (g a).mapM f).flatten) = (l.flatMap g).mapM f := by
  induction l with
  | nil => rfl
  | cons a rest ih =>
    rw [List.mapM_cons, List.flatMap_cons, List.mapM_append, ← ih]
    cases (g a).mapM f with
    | error e => rfl
    | ok bs => cases rest.mapM fun a => (g a).mapM f <;> rfl

end Readings

/-! ## One condition -/

namespace Filter

variable {w : Written} {c : Clause} {e : Error} {key : String} {json : Json}

/-- A scalar is read as the value that it stands for. -/
theorem ofJson?_eq_some_iff {v : Value} : Value.ofJson? json = some v ↔ json.Denotes v := by
  constructor
  · intro reads
    cases json with
    | null =>
      cases reads
      exact .null
    | bool b =>
      cases b <;> cases reads
      · exact .no
      · exact .yes
    | integer n =>
      simp only [Value.ofJson?] at reads
      split at reads
      · rename_i inside
        cases reads
        have same : (Int64.ofInt n).toInt = n := Int64.toInt_ofInt_of_le inside.1 inside.2
        simpa only [same] using Json.Denotes.integer (Int64.ofInt n)
      · rename_i outside
        cases reads
        exact .long (by omega)
    | real x =>
      cases reads
      exact .real x
    | string s =>
      cases reads
      exact .text s
    | array items => cases reads
    | object members => cases reads
  · intro denotes
    cases denotes with
    | integer n =>
      have fits : -pow2 63 ≤ n.toInt ∧ n.toInt < pow2 63 := ⟨n.le_toInt, n.toInt_lt⟩
      rw [Value.ofJson?, if_pos fits, Int64.ofInt_toInt]
    | long outside =>
      rw [Value.ofJson?, if_neg (by omega)]
    | _ => rfl

theorem isSome_ofJson? (json : Json) : (Value.ofJson? json).isSome = json.isScalar := by
  cases json <;> rfl

theorem exists_value_iff : (∃ v, json.Denotes v) ↔ json.isScalar = true := by
  simp only [← ofJson?_eq_some_iff, ← isSome_ofJson?, Option.isSome_iff_exists]

theorem ofJson?_eq_none_iff : Value.ofJson? json = none ↔ json.isScalar = false := by
  rw [← isSome_ofJson?, Option.isSome_eq_false_iff, Option.isNone_iff_eq_none]

theorem ofKey?_eq_some_iff {op : Operator} : Operator.ofKey? key = some op ↔ (key, op) ∈ operatorKeys := by
  unfold Operator.ofKey?
  split <;> simp_all [operatorKeys, eq_comm]

theorem ofKey?_eq_none_iff : Operator.ofKey? key = none ↔ ∀ op, (key, op) ∉ operatorKeys := by
  simp only [← ofKey?_eq_some_iff, Option.eq_none_iff_forall_ne_some, ne_eq]

theorem scalar_eq_ok_iff {v : Value} : scalar key json = .ok v ↔ json.Denotes v := by
  rw [← ofJson?_eq_some_iff]
  unfold scalar
  cases Value.ofJson? json <;> simp

theorem scalar_eq_error_iff : scalar key json = .error e ↔
    json.isScalar = false ∧ e = .invalidOperand key (.notScalar json.write) := by
  rw [← ofJson?_eq_none_iff]
  unfold scalar
  cases Value.ofJson? json <;> simp [eq_comm]

/-- A condition is read as the clause that it means. -/
theorem Written.read_eq_ok_iff : w.read = .ok c ↔ w.Means c := by
  constructor
  · intro read
    cases w with
    | literal field json =>
      obtain ⟨v, value, same⟩ := bind_eq_ok.mp read
      cases same
      exact .literal (scalar_eq_ok_iff.mp value)
    | operator field key operand =>
      obtain ⟨condition, means, same⟩ := bind_eq_ok.mp read
      cases same
      unfold conditionOfJson at means
      split at means
      · cases means
      · rename_i op known
        obtain ⟨v, value, same⟩ := bind_eq_ok.mp means
        cases same
        exact .compare (ofKey?_eq_some_iff.mp known) (scalar_eq_ok_iff.mp value)
      · rename_i op known
        split at means
        · obtain ⟨vs, values, same⟩ := bind_eq_ok.mp means
          cases same
          refine .member (ofKey?_eq_some_iff.mp known) ?_
          simpa only [scalar_eq_ok_iff] using mapM_eq_ok.mp values
        · cases means
    | bare field => cases read
  · intro means
    cases means with
    | literal value => exact bind_eq_ok.mpr ⟨_, scalar_eq_ok_iff.mpr value, rfl⟩
    | compare known value =>
      refine bind_eq_ok.mpr ⟨_, ?_, rfl⟩
      rw [conditionOfJson, ofKey?_eq_some_iff.mpr known]
      exact bind_eq_ok.mpr ⟨_, scalar_eq_ok_iff.mpr value, rfl⟩
    | member known values =>
      refine bind_eq_ok.mpr ⟨_, ?_, rfl⟩
      rw [conditionOfJson, ofKey?_eq_some_iff.mpr known]
      refine bind_eq_ok.mpr ⟨_, mapM_eq_ok.mpr ?_, rfl⟩
      simpa only [scalar_eq_ok_iff] using values

/-- A condition that means nothing is refused for its offence. -/
theorem Written.read_eq_error_iff : w.read = .error e ↔ w.Offends e := by
  constructor
  · intro read
    cases w with
    | literal field json =>
      obtain ⟨compound, rfl⟩ := scalar_eq_error_iff.mp (bind_ok_eq_error.mp read)
      exact .literal compound
    | operator field key operand =>
      have refused : conditionOfJson key operand = .error e := bind_ok_eq_error.mp read
      unfold conditionOfJson at refused
      split at refused
      · rename_i unknown
        cases refused
        exact .unknown (ofKey?_eq_none_iff.mp unknown)
      · rename_i op known
        obtain ⟨compound, rfl⟩ := scalar_eq_error_iff.mp (bind_ok_eq_error.mp refused)
        exact .compound (ofKey?_eq_some_iff.mp known) compound
      · rename_i op known
        have known := ofKey?_eq_some_iff.mp known
        split at refused
        · obtain ⟨before, item, after, rfl, scalars, failed⟩ :=
            mapM_eq_error.mp (bind_ok_eq_error.mp refused)
          obtain ⟨compound, rfl⟩ := scalar_eq_error_iff.mp failed
          refine .item known ?_ compound
          simpa only [scalar_eq_ok_iff, exists_value_iff] using scalars
        · rename_i other
          cases refused
          exact .notArray known fun items same => other items same
    | bare field =>
      cases read
      exact .bare field
  · intro offends
    cases offends with
    | literal compound => exact bind_ok_eq_error.mpr (scalar_eq_error_iff.mpr ⟨compound, rfl⟩)
    | bare field => rfl
    | unknown unknown =>
      refine bind_ok_eq_error.mpr ?_
      rw [conditionOfJson, ofKey?_eq_none_iff.mpr unknown]
    | compound known compound =>
      refine bind_ok_eq_error.mpr ?_
      rw [conditionOfJson, ofKey?_eq_some_iff.mpr known]
      exact bind_ok_eq_error.mpr (scalar_eq_error_iff.mpr ⟨compound, rfl⟩)
    | @notArray field key operand op known other =>
      refine bind_ok_eq_error.mpr ?_
      rw [conditionOfJson, ofKey?_eq_some_iff.mpr known]
      cases operand with
      | array items => exact absurd rfl (other items)
      | _ => rfl
    | item known scalars compound =>
      refine bind_ok_eq_error.mpr ?_
      rw [conditionOfJson, ofKey?_eq_some_iff.mpr known]
      refine bind_ok_eq_error.mpr (mapM_eq_error.mpr ⟨_, _, _, rfl, ?_, scalar_eq_error_iff.mpr ⟨compound, rfl⟩⟩)
      simpa only [scalar_eq_ok_iff, exists_value_iff] using scalars

/-! ## Whole documents -/

theorem clausesOfField_eq (field : String) (json : Json) :
    clausesOfField field json = (writtenAt field json).mapM Written.read := by
  have single (w : Written) : [w].mapM Written.read = (do .ok [← w.read]) := by
    rw [List.mapM_cons]
    cases w.read <;> rfl
  have literal (json : Json) :
      (do .ok [⟨field, .equals (← scalar "$eq" json)⟩]) = [Written.literal field json].mapM Written.read := by
    rw [single, Written.read]
    cases scalar "$eq" json <;> rfl
  cases json with
  | object members =>
    cases members with
    | nil => rfl
    | cons m rest =>
      rw [writtenAt, List.mapM_map]
      · rfl
      · simp
  | _ => exact literal _

/-- The filter of an object is read condition by condition. -/
theorem ofJson_object (fields : List (String × Json)) :
    ofJson (.object fields) = (do .ok ⟨← (written (.object fields)).mapM Written.read⟩) := by
  simp only [ofJson, written, ← mapM_flatMap, clausesOfField_eq]
  cases fields.mapM fun m => (writtenAt m.1 m.2).mapM Written.read <;> rfl

/-- An operator takes an operand exactly if the two mean something. -/
theorem exists_means_operator {field key : String} {operand : Json} :
    (∃ c, (Written.operator field key operand).Means c) ↔
      ∃ op, (key, op) ∈ operatorKeys ∧ op.Takes operand := by
  constructor
  · rintro ⟨c, means⟩
    cases means with
    | compare known value => exact ⟨_, known, .compare (exists_value_iff.mp ⟨_, value⟩)⟩
    | member known values =>
      refine ⟨_, known, .member fun item member => ?_⟩
      obtain ⟨v, -, value⟩ := exists_related values member
      exact exists_value_iff.mp ⟨v, value⟩
  · rintro ⟨op, known, takes⟩
    cases takes with
    | compare scalar =>
      obtain ⟨v, value⟩ := exists_value_iff.mpr scalar
      exact ⟨_, .compare known value⟩
    | @member op items scalars =>
      have values : ∃ vs, List.Forall₂ Json.Denotes items vs := by
        clear known
        induction items with
        | nil => exact ⟨[], .nil⟩
        | cons item rest ih =>
          rw [List.forall_mem_cons] at scalars
          obtain ⟨v, value⟩ := exists_value_iff.mpr scalars.1
          obtain ⟨vs, values⟩ := ih scalars.2
          exact ⟨v :: vs, .cons value values⟩
      obtain ⟨vs, values⟩ := values
      exact ⟨_, .member known values⟩

/-- What stands at a field is required of it exactly if all conditions there mean something. -/
theorem requirement_iff (field : String) :
    Requirement json ↔ ∀ w ∈ writtenAt field json, ∃ c, w.Means c := by
  constructor
  · rintro (scalar | ⟨some, fit⟩)
    · obtain ⟨v, value⟩ := exists_value_iff.mpr scalar
      have alone : writtenAt field json = [.literal field json] := by cases value <;> rfl
      rw [alone]
      exact List.forall_mem_singleton.mpr ⟨_, .literal value⟩
    · rename_i members
      have each : writtenAt field (.object members) = members.map fun m => .operator field m.1 m.2 := by
        cases members with
        | nil => exact absurd rfl some
        | cons m rest => rfl
      rw [each, List.forall_mem_map]
      exact fun m member => exists_means_operator.mpr (fit m member)
  · intro means
    have literal (same : writtenAt field json = [.literal field json]) : Requirement json := by
      rw [same, List.forall_mem_singleton] at means
      obtain ⟨c, ⟨value⟩⟩ := means
      exact .literal (exists_value_iff.mp ⟨_, value⟩)
    cases json with
    | object members =>
      cases members with
      | nil =>
        obtain ⟨c, none⟩ := means (.bare field) (List.mem_singleton_self _)
        cases none
      | cons m rest =>
        refine .operators (by simp) fun m' member => ?_
        exact exists_means_operator.mp (means _ (List.mem_map_of_mem member))
    | _ => exact literal rfl

theorem writtenAt_ne_nil (field : String) (json : Json) : writtenAt field json ≠ [] := by
  cases json with
  | object members => cases members <;> simp [writtenAt]
  | _ => simp [writtenAt]

/-- The filter of a document, if there is one, has the clauses that its conditions mean. -/
theorem clauses_of_ofJson {f : Filter} (read : ofJson json = .ok f) :
    Document json ∧ List.Forall₂ Written.Means (written json) f.clauses := by
  cases json with
  | null =>
    cases read
    exact ⟨.null, .nil⟩
  | object fields =>
    rw [ofJson_object] at read
    obtain ⟨clauses, reads, same⟩ := bind_eq_ok.mp read
    cases same
    have means : List.Forall₂ Written.Means (written (.object fields)) clauses := by
      simpa only [Written.read_eq_ok_iff] using mapM_eq_ok.mp reads
    refine ⟨.object fun m member => (requirement_iff m.1).mpr fun w here => ?_, means⟩
    obtain ⟨c, -, mean⟩ := exists_related means (List.mem_flatMap.mpr ⟨m, member, here⟩)
    exact ⟨c, mean⟩
  | _ => cases read

theorem exists_ofJson_iff : (∃ f, ofJson json = .ok f) ↔ Document json := by
  constructor
  · rintro ⟨f, read⟩
    exact (clauses_of_ofJson read).1
  · rintro (_ | fit)
    · exact ⟨empty, rfl⟩
    · rename_i fields
      cases read : ofJson (.object fields) with
      | ok f => exact ⟨f, rfl⟩
      | error e =>
        -- The condition that fails stands at a field, and all conditions there mean something.
        rw [ofJson_object] at read
        obtain ⟨before, w, after, split, -, failed⟩ := mapM_eq_error.mp (bind_ok_eq_error.mp read)
        obtain ⟨m, member, here⟩ := List.mem_flatMap.mp (split ▸ List.mem_append_cons_self : w ∈ written _)
        obtain ⟨c, means⟩ := (requirement_iff m.1).mp (fit m member) w here
        cases (Written.read_eq_ok_iff.mpr means).symm.trans failed

theorem ofJson_eq_error_iff : ofJson json = .error e ↔
    (json ≠ .null ∧ (∀ fields, json ≠ .object fields) ∧ e = .invalidOperand "filter" .notObject) ∨
      ∃ before w after, written json = before ++ w :: after ∧ (∀ b ∈ before, ∃ c, b.Means c) ∧
        w.Offends e := by
  have outside (written : written json = []) : ¬ ∃ before w after, Filter.written json = before ++ w :: after ∧
      (∀ b ∈ before, ∃ c, b.Means c) ∧ w.Offends e := by
    rintro ⟨before, w, after, split, -⟩
    simp [written] at split
  cases json with
  | object fields =>
    rw [ofJson_object, bind_ok_eq_error, mapM_eq_error]
    simp [Written.read_eq_ok_iff, Written.read_eq_error_iff]
  | null => simp [ofJson, written]
  | _ => simp [ofJson, written, eq_comm]

theorem isEmpty_iff {f : Filter} (read : ofJson json = .ok f) :
    f.isEmpty = true ↔ json = .null ∨ json = .object [] := by
  obtain ⟨document, means⟩ := clauses_of_ofJson read
  have none : f.isEmpty = true ↔ written json = [] := by
    rw [isEmpty, List.isEmpty_iff, ← List.length_eq_zero_iff, ← means.length_eq, List.length_eq_zero_iff]
  rw [none]
  cases document with
  | null => simp [written]
  | @object fields fit =>
    cases fields with
    | nil => simp [written]
    | cons m rest => simp [written, writtenAt_ne_nil]

end Filter

/-! ## Deletions on the command line -/

namespace Session

variable {σ : Type} {backend : Backend σ} {s : Session σ}

theorem takeHook_unscripted (unscripted : s.scripted = false) (kind : CallKind) (moment : Moment) :
    s.takeHook kind moment = ([], s) := by
  simp [takeHook, unscripted]

theorem answer_unscripted (unscripted : s.scripted = false) (call : Call) :
    s.answer backend call =
      ((backend.answer call s.storage).1, { s with storage := (backend.answer call s.storage).2 }) := by
  simp [answer, unscripted, Reply.answer?]

variable (backend) in
/-- In a session in which nobody observes, one command sends one call. -/
theorem sent_run_send (unscripted : s.scripted = false) (alone : s.bus = .empty) (call : Call)
    (event : ChangeEvent) (reading : Reading) :
    (s.run backend [.send call (.publish event reading .top)]).history.filterMap Happening.sent? =
      call :: s.history.filterMap Happening.sent? := by
  have sent : (s.record (.sent call)).scripted = false := unscripted
  have answered (storage : σ) : ({ s.record (.sent call) with storage } : Session σ).scripted = false := unscripted
  simp only [run, advance, takeHook_unscripted sent, answer_unscripted sent, takeHook_unscripted (answered _),
    List.cons_append, List.nil_append, resume]
  cases reading.outcome (backend.answer call (s.record (.sent call)).storage).1 with
  | error e => simp [refuse, run, advance, record, Happening.sent?, List.filterMap_cons]
  | ok result => simp [publish, alone, Bus.observers, run, advance, record, Happening.sent?, List.filterMap_cons]

variable (backend) in
/-- A deletion on the command line sends one call, if its filter can be read and every check passes, and
else none. -/
theorem sent_deletion (storage : σ) (now : Int64) {table text : String} {json : Json} (call : Call)
    (reads : Json.read? text = some json) :
    .sent call ∈ ((Session.start storage false now).give backend (.delete table (.json text))).history ↔
      ∃ f, Filter.ofJson json = .ok f ∧ Request.delete table f = .ok call := by
  obtain ⟨s, shape⟩ :
      ∃ s, s = (Session.start storage false now).record (.asked (.delete table (.json text))) := ⟨_, rfl⟩
  have unsent : s.history.filterMap Happening.sent? = [] := by
    subst shape
    rfl
  have refused (f : Failure) : ((s.refuse .top f).1.run backend (s.refuse .top f).2).history.filterMap
      Happening.sent? = [] := by
    simpa [refuse, run, advance, record, Happening.sent?, List.filterMap_cons] using unsent
  have given : (Given.json text : Given Filter).filter = storeError (Filter.ofJson json) := by
    simp [Given.filter, readJson, reads, bind, Except.bind]
  rw [← mem_sent]
  simp only [give, ask, ← shape, perform, given]
  cases Filter.ofJson json with
  | error e =>
    simp only [storeError, withArgument, refused]
    simp
  | ok f =>
    simp only [storeError, withArgument, Except.ok.injEq, exists_eq_left']
    cases Request.delete table f with
    | error e =>
      simp only [request, refused]
      simp
    | ok made =>
      have sends := sent_run_send backend (s := s) (shape ▸ rfl) (shape ▸ rfl) made
        ⟨table, .delete, none⟩ .count
      simp only [request, sends, unsent, List.mem_singleton, Except.ok.injEq, eq_comm]

end Session

theorem Statement.text_delete (table : String) (tests : List Test) :
    (tests = [] ∧ (Statement.delete table tests).text = "DELETE FROM " ++ table) ∨
      tests ≠ [] ∧ ∃ condition,
        (Statement.delete table tests).text = "DELETE FROM " ++ table ++ " WHERE " ++ condition := by
  cases tests with
  | nil => exact .inl ⟨rfl, by simp [text, pieces, wherePieces, String.join, Piece.text]⟩
  | cons test rest =>
    refine .inr ⟨by simp, String.join ((separated " AND " ((test :: rest).map fun t =>
      [.name .field t.field, .word (" " ++ t.op.sql)])).map Piece.text), ?_⟩
    simp [text, pieces, wherePieces, Piece.text, String.append_assoc]

namespace Filter

/-- Exactly the documents of filters are read. A filter has one clause for each condition that its document
writes, in the order of the document, with the field, the operator and the operands that are written; only
null and the object without fields give a filter without clauses, and so of the deletions on the command
line whose filter is given only these have no condition. What is no document of a filter is refused for its
first condition that means nothing. -/
theorem ofJson_exact (json : Json) :
    ((∃ f, ofJson json = .ok f) ↔ Document json) ∧
    (∀ f, ofJson json = .ok f → List.Forall₂ Written.Means (written json) f.clauses ∧
      (f.isEmpty = true ↔ json = .null ∨ json = .object [])) ∧
    (∀ e, ofJson json = .error e ↔
      (json ≠ .null ∧ (∀ fields, json ≠ .object fields) ∧ e = .invalidOperand "filter" .notObject) ∨
      ∃ before w after, written json = before ++ w :: after ∧ (∀ b ∈ before, ∃ c, b.Means c) ∧
        w.Offends e) ∧
    ∀ (σ : Type) (backend : Backend σ) (storage : σ) (now : Int64) (i : CommandLine.Invocation)
      (table text : String) (call : Call), i.command = .delete table (.json text) →
      Json.read? text = some json →
      .sent call ∈ ((Session.start storage false now).give backend i.command).history →
        (call.statement.text = "DELETE FROM " ++ table ↔ json = .null ∨ json = .object []) ∧
        (call.statement.text ≠ "DELETE FROM " ++ table →
          ∃ condition, call.statement.text = "DELETE FROM " ++ table ++ " WHERE " ++ condition) := by
  refine ⟨exists_ofJson_iff, fun f read => ⟨(clauses_of_ofJson read).2, isEmpty_iff read⟩,
    fun e => ofJson_eq_error_iff, ?_⟩
  intro σ backend storage now i table text call deletes reads sent
  rw [deletes] at sent
  obtain ⟨f, read, made⟩ := (Session.sent_deletion backend storage now call reads).mp sent
  obtain ⟨-, predicate, translated, rfl⟩ := Request.delete_eq_ok.mp made
  obtain ⟨-, rfl⟩ := ofFilter_eq_ok.mp translated
  rw [← isEmpty_iff read, isEmpty, List.isEmpty_iff]
  rcases Statement.text_delete table (f.clauses.map fun c => ⟨c.field, c.condition.testOp⟩) with
    ⟨none, bare⟩ | ⟨some, condition, conditional⟩
  · exact ⟨iff_of_true bare (by simpa using none), fun other => absurd bare other⟩
  · refine ⟨iff_of_false ?_ (by simpa using some), fun _ => ⟨condition, conditional⟩⟩
    intro same
    have longer := congrArg String.length (conditional.symm.trans same)
    have some : " WHERE ".length = 7 := rfl
    simp only [String.length_append] at longer
    omega

/-- Every kind of scalar, and two operators at one field. -/
def survey : Json := .object [("title", .null), ("done", .bool true), ("size", .integer 9223372036854775808),
  ("priority", .object [("$gte", .integer (-2)),
    ("$in", .array [.bool false, .real (.ofInt 3), .string "high"])])]

/-- The filter that it is read as. -/
def surveyed : Filter := ⟨[⟨"title", .equals .null⟩, ⟨"done", .equals (.integer 1)⟩,
  ⟨"size", .equals (.real (.ofInt 9223372036854775808))⟩, ⟨"priority", .compare .ge (.integer (-2))⟩,
  ⟨"priority", .member .isIn [.integer 0, .real (.ofInt 3), .text "high"]⟩]⟩

/-- A document with an unknown operator, and another fault behind it. -/
def nearby : Json := .object [("title", .string "a"),
  ("priority", .object [("$gt", .integer 1), ("$near", .array [])]), ("done", .array [])]

theorem survey_exact : Document survey ∧ ofJson survey = .ok surveyed ∧
    List.Forall₂ Written.Means (written survey) surveyed.clauses ∧
    ofJson nearby = .error (.unsupportedOperator "$near") := by
  have read : ofJson survey = .ok surveyed := by decide +kernel
  refine ⟨(ofJson_exact survey).1.mp ⟨surveyed, read⟩, read, ((ofJson_exact survey).2.1 surveyed read).1, ?_⟩
  refine ((ofJson_exact nearby).2.2.1 _).mpr (.inr ⟨[.literal "title" (.string "a"),
    .operator "priority" "$gt" (.integer 1)], .operator "priority" "$near" (.array []),
    [.literal "done" (.array [])], rfl, ?_, .unknown (by simp [operatorKeys])⟩)
  rw [List.forall_mem_cons, List.forall_mem_singleton]
  exact ⟨⟨_, .literal (.text "a")⟩,
    ⟨"priority", .compare .gt (.integer 1)⟩, .compare (by simp [operatorKeys]) (.integer 1)⟩

end Filter

end LiveTable
