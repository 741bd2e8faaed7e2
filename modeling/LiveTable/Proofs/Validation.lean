import LiveTable.Proofs.Sending
import Mathlib

/-!
# The checks of an operation

An operation of the store checks the names that it is given before it does anything else: the table, then
the columns, then the fields of the filter, then the columns of the order. The first check that fails decides
the error, and then nothing is sent, nothing is published and nothing is changed; if no check fails, the
operation sends a statement, whatever its observers do.
-/

namespace LiveTable

/-- A letter of ASCII. -/
def IsLetter (c : Char) : Prop := 'a' ≤ c ∧ c ≤ 'z' ∨ 'A' ≤ c ∧ c ≤ 'Z'

/-- A digit of ASCII. -/
def IsDigit (c : Char) : Prop := '0' ≤ c ∧ c ≤ '9'

/-- A plain identifier: a letter or an underscore, then letters, digits and underscores, at most sixty-four
of them in all. -/
structure Plain (name : String) : Prop where
  first : ∃ c, name.toList.head? = some c ∧ (IsLetter c ∨ c = '_')
  chars : ∀ c ∈ name.toList, IsLetter c ∨ IsDigit c ∨ c = '_'
  short : name.length ≤ 64

/-- A check of one name. -/
inductive Check
  /-- The name is a plain identifier. -/
  | identifier (name : String)
  /-- The entry of a projection is the star or a plain identifier. -/
  | entry (column : String)
  /-- The entry of a projection is none of those in front of it. -/
  | new (column : String) (before : List String)

/-- The check passes. -/
def Check.Passes : Check → Prop
  | identifier name => Plain name
  | entry column => column = "*" ∨ Plain column
  | new column before => column ∉ before

/-- The error of a check that fails. -/
def Check.error : Check → Error
  | identifier name => .invalidIdentifier name
  | entry column => .invalidIdentifier column
  | new column _ => .duplicateColumn column

/-- Names that must be plain identifiers, from left to right. -/
def Check.ofNames (names : List String) : List Check := names.map .identifier

/-- The checks of a projection: at each entry, whether it is a column at all, and then whether it is new. -/
def Check.ofProjection (columns : List String) : List Check :=
  columns.zipIdx.flatMap fun (column, i) => [.entry column, .new column (columns.take i)]

/-- Names with the reserved one: it stays where it is, or it is put behind them. -/
def withReserved (names : List String) : List String :=
  if addedColumn ∈ names then names else names ++ [addedColumn]

/-- The checks of an operation that sends one statement about a table, in their order. -/
inductive Operation.Checked : Operation → List Check → Prop
  | createTable (table : String) (spec : ColumnSpec) :
    Checked (.createTable table spec) (Check.ofNames (table :: withReserved spec.names))
  | createIndex (table column : String) :
    Checked (.createIndex table column) (Check.ofNames [table, column])
  | schema (table : String) : Checked (.schema table) (Check.ofNames [table])
  | dropTable (table : String) : Checked (.dropTable table) (Check.ofNames [table])
  | insert (table : String) (row : Row) :
    Checked (.data (.insert table row)) (Check.ofNames (table :: withReserved row.names))
  | update (table : String) (filter : Filter) (row : Row) :
    Checked (.data (.update table filter row)) (Check.ofNames (table :: (row.names ++ filter.fields)))
  | delete (table : String) (filter : Filter) :
    Checked (.data (.delete table filter)) (Check.ofNames (table :: filter.fields))
  | select (spec : QuerySpec) :
    Checked (.data (.select spec)) (Check.ofNames [spec.table] ++ (Check.ofProjection spec.columns ++
      Check.ofNames (spec.filter.fields ++ spec.order.keys.map (·.column))))

/-- The first of the checks that fails. -/
inductive FirstFailure : List Check → Check → Prop
  | here {check : Check} {rest : List Check} (fails : ¬ check.Passes) : FirstFailure (check :: rest) check
  | later {passed check : Check} {rest : List Check} (passes : passed.Passes)
    (fails : FirstFailure rest check) : FirstFailure (passed :: rest) check

/-- The entries of the projection that an operation is given. -/
def Operation.projected : Operation → List String
  | .data (.select spec) => spec.columns
  | _ => []

/-- The names that an operation is given beside the entries of a projection. -/
def Operation.plainNames : Operation → List String
  | .data (.select spec) => spec.table :: (spec.filter.fields ++ spec.order.keys.map (·.column))
  | operation => operation.names

/-- Every name that the operation is given is a plain identifier, an entry of a projection may be the star
as well, and no entry repeats an earlier one. -/
structure Operation.Proper (operation : Operation) : Prop where
  named : ∀ name ∈ operation.plainNames, Plain name
  projected : ∀ column ∈ operation.projected, column = "*" ∨ Plain column
  apart : operation.projected.Nodup

/-! ## Plain identifiers -/

theorem isNameStart_iff {c : Char} : isNameStart c = true ↔ IsLetter c ∨ c = '_' := by
  simp [isNameStart, IsLetter, Char.isAlpha, Char.isUpper, Char.isLower, Char.le_def, or_comm]

theorem isNameChar_iff {c : Char} : isNameChar c = true ↔ IsLetter c ∨ IsDigit c ∨ c = '_' := by
  simp [isNameChar, IsLetter, IsDigit, Char.isAlphanum, Char.isAlpha, Char.isUpper, Char.isLower, Char.isDigit,
    Char.le_def, or_comm, or_assoc]

theorem isIdentifier_iff {name : String} : isIdentifier name = true ↔ Plain name := by
  obtain ⟨chars, rfl⟩ : ∃ chars, name = String.ofList chars := ⟨name.toList, by simp⟩
  cases chars with
  | nil => exact ⟨nofun, fun plain => by simpa using plain.first⟩
  | cons c rest =>
    have start (starts : isNameStart c = true) : isNameChar c = true :=
      isNameChar_iff.mpr ((isNameStart_iff.mp starts).imp_right .inr)
    have length : (String.ofList (c :: rest)).length = rest.length + 1 := by simp [Nat.add_comm]
    simp only [isIdentifier, String.toList_ofList, isIdentifierChars, Bool.and_eq_true, List.all_eq_true,
      decide_eq_true_eq]
    constructor
    · rintro ⟨⟨starts, named⟩, short⟩
      refine ⟨⟨c, by simp, isNameStart_iff.mp starts⟩, ?_, by omega⟩
      rw [String.toList_ofList, List.forall_mem_cons]
      exact ⟨isNameChar_iff.mp (start starts), fun d member => isNameChar_iff.mp (named d member)⟩
    · rintro ⟨⟨d, first, starts⟩, named, short⟩
      rw [String.toList_ofList] at first named
      obtain rfl : c = d := by simpa using first
      exact ⟨⟨isNameStart_iff.mpr starts,
        fun d member => isNameChar_iff.mpr (named d (List.mem_cons_of_mem _ member))⟩, by omega⟩

theorem mem_withReserved {name : String} {names : List String} :
    name ∈ withReserved names ↔ name ∈ names ∨ name = addedColumn := by
  unfold withReserved
  split
  · rename_i there
    exact ⟨.inl, fun given => given.elim id fun same => same ▸ there⟩
  · simp

/-- Inserting the reserved name gives these names. -/
theorem names_insert_reserved {α : Type} (m : Ordered α) (value : α) :
    (m.insert addedColumn value).names = withReserved m.names :=
  Ordered.names_place addedColumn value m.entries

/-! ## The first failure -/

variable {α β : Type} {checks more : List Check} {check : Check}

theorem passes_or_fails (checks : List Check) :
    (∀ check ∈ checks, check.Passes) ∨ ∃ check, FirstFailure checks check := by
  induction checks with
  | nil => exact .inl (List.forall_mem_nil _)
  | cons check rest ih =>
    by_cases passes : check.Passes
    · rcases ih with all | ⟨later, fails⟩
      · exact .inl (List.forall_mem_cons.mpr ⟨passes, all⟩)
      · exact .inr ⟨later, .later passes fails⟩
    · exact .inr ⟨check, .here passes⟩

theorem FirstFailure.not_passes (fails : FirstFailure checks check) : ¬ ∀ check ∈ checks, check.Passes := by
  induction fails with
  | here fails => exact fun all => fails (all _ (List.mem_cons_self ..))
  | later passes fails ih => exact fun all => ih fun check member => all check (List.mem_cons_of_mem _ member)

theorem FirstFailure.append (fails : FirstFailure (checks ++ more) check) :
    FirstFailure checks check ∨ (∀ check ∈ checks, check.Passes) ∧ FirstFailure more check := by
  induction checks with
  | nil => exact .inr ⟨List.forall_mem_nil _, fails⟩
  | cons first rest ih =>
    cases fails with
    | here fails => exact .inl (.here fails)
    | later passes fails =>
      rcases ih fails with here | ⟨all, later⟩
      · exact .inl (.later passes here)
      · exact .inr ⟨List.forall_mem_cons.mpr ⟨passes, all⟩, later⟩

/-- The checks decide what a computation gives: a value if all of them pass, and otherwise the error of the
first that fails. -/
structure Decides (checks : List Check) (result : Except Error α) : Prop where
  passes : (∀ check ∈ checks, check.Passes) → ∃ a, result = .ok a
  fails : ∀ check, FirstFailure checks check → result = .error check.error

theorem Decides.ok (a : α) : Decides [] (.ok a) where
  passes _ := ⟨a, rfl⟩
  fails _ fails := nomatch fails

/-- Computations that are done one after the other are decided by the checks of both. -/
theorem Decides.bind {x : Except Error α} {f : α → Except Error β} (first : Decides checks x)
    (next : ∀ a, Decides more (f a)) : Decides (checks ++ more) (x >>= f) where
  passes all := by
    obtain ⟨passes, passes'⟩ := List.forall_mem_append.mp all
    obtain ⟨a, rfl⟩ := first.passes passes
    exact (next a).passes passes'
  fails check fails := by
    rcases fails.append with here | ⟨passes, later⟩
    · rw [first.fails check here]
      rfl
    · obtain ⟨a, rfl⟩ := first.passes passes
      exact (next a).fails check later

theorem Decides.give {x : Except Error α} (decides : Decides checks x) (f : α → β) :
    Decides checks (x >>= fun a => .ok (f a)) := by
  have both := decides.bind fun a => Decides.ok (f a)
  rwa [List.append_nil] at both

theorem Decides.passes_iff {result : Except Error α} (decides : Decides checks result) :
    (∀ check ∈ checks, check.Passes) ↔ ∃ a, result = .ok a := by
  refine ⟨decides.passes, fun ⟨a, accepted⟩ => (passes_or_fails checks).resolve_right ?_⟩
  rintro ⟨check, fails⟩
  cases accepted.symm.trans (decides.fails check fails)

/-- One check, and the error that it gives. -/
theorem decides_check {p : Prop} [Decidable p] (passes : check.Passes ↔ p) :
    Decides [check] (if p then .ok () else .error check.error) where
  passes all := ⟨(), if_pos (passes.mp (all check (List.mem_singleton_self _)))⟩
  fails other fails := by
    cases fails with
    | here fails => exact if_neg (mt passes.mpr fails)
    | later _ fails => cases fails

/-! ## Checks of names -/

theorem decides_checkName (name : String) : Decides [.identifier name] (checkName name) :=
  decides_check isIdentifier_iff.symm

theorem decides_checkNames (names : List String) : Decides (Check.ofNames names) (checkNames names) := by
  induction names with
  | nil => exact .ok ()
  | cons name rest ih => exact (decides_checkName name).bind fun _ => ih

theorem decides_ofFilter (f : Filter) : Decides (Check.ofNames f.fields) (Predicate.ofFilter f) :=
  (decides_checkNames f.fields).give _

/-- An entry is checked twice before the entries behind it are. -/
theorem checkProjection_cons (before rest : List String) (column : String) :
    Request.checkProjection before (column :: rest) =
      ((if column = "*" ∨ isIdentifier column = true then .ok () else .error (Check.entry column).error) >>=
        fun _ => (if column ∉ before then .ok () else .error (Check.new column before).error) >>=
          fun _ => Request.checkProjection (column :: before) rest) := by
  simp only [Request.checkProjection, checkName]
  by_cases star : column = "*"
  · subst star
    by_cases old : "*" ∈ before <;> simp [old] <;> rfl
  · by_cases named : isIdentifier column = true <;> by_cases old : column ∈ before <;>
      simp [star, named, old] <;> rfl

/-- The entries in front come in reverse to the check of those behind them. -/
theorem decides_checkProjection (before columns : List String) :
    Decides (columns.zipIdx.flatMap fun (column, i) =>
        [.entry column, .new column (before ++ columns.take i)])
      (Request.checkProjection before.reverse columns) := by
  induction columns generalizing before with
  | nil => exact .ok ()
  | cons column rest ih =>
    have shifted : ((column :: rest).zipIdx.flatMap fun (entry, i) =>
          [Check.entry entry, .new entry (before ++ (column :: rest).take i)]) =
        [.entry column] ++ ([.new column before] ++ rest.zipIdx.flatMap fun (entry, i) =>
          [.entry entry, .new entry (before ++ [column] ++ rest.take i)]) := by
      simp [List.zipIdx_cons, List.zipIdx_succ, List.flatMap_map]
    have entry : (Check.entry column).Passes ↔ column = "*" ∨ isIdentifier column = true :=
      or_congr_right isIdentifier_iff.symm
    have new : (Check.new column before).Passes ↔ column ∉ before.reverse := by simp [Check.Passes]
    rw [shifted, checkProjection_cons]
    refine (decides_check entry).bind fun _ => (decides_check new).bind fun _ => ?_
    simpa using ih (before ++ [column])

theorem passes_ofNames {names : List String} :
    (∀ check ∈ Check.ofNames names, check.Passes) ↔ ∀ name ∈ names, Plain name := by
  simp [Check.ofNames, Check.Passes]

theorem passes_ofProjection {columns : List String} :
    (∀ check ∈ Check.ofProjection columns, check.Passes) ↔
      (∀ column ∈ columns, column = "*" ∨ Plain column) ∧ columns.Nodup := by
  have decides : Decides (Check.ofProjection columns) (Request.checkProjection [] columns) :=
    decides_checkProjection [] columns
  have accepted : (∃ a, Request.checkProjection [] columns = .ok a) ↔
      Request.checkProjection [] columns = .ok () := ⟨fun ⟨_, passed⟩ => passed, fun passed => ⟨_, passed⟩⟩
  simp [decides.passes_iff, accepted, checkProjection_eq_ok, isIdentifier_iff]

/-! ## Checks of requests -/

theorem decides_createTable (table : String) (spec : ColumnSpec) :
    Decides (Check.ofNames (table :: withReserved spec.names)) (Request.createTable table spec) := by
  rw [← names_insert_reserved spec (.plain .integer)]
  exact (decides_checkName table).bind fun _ => (decides_checkNames _).give _

theorem decides_createIndex (table column : String) :
    Decides (Check.ofNames [table, column]) (Request.createIndex table column) :=
  (decides_checkName table).bind fun _ => (decides_checkName column).give _

theorem decides_dropTable (table : String) : Decides (Check.ofNames [table]) (Request.dropTable table) :=
  (decides_checkName table).give _

theorem decides_tableInfo (table : String) : Decides (Check.ofNames [table]) (Request.tableInfo table) :=
  (decides_checkName table).give _

theorem decides_insert (now : Int64) (table : String) (row : Row) :
    Decides (Check.ofNames (table :: withReserved row.names)) (Request.insert now table row) := by
  rw [← names_insert_reserved row (.integer now)]
  exact (decides_checkName table).bind fun _ => (decides_checkNames _).give _

theorem decides_update (table : String) (filter : Filter) (row : Row) :
    Decides (Check.ofNames (table :: (row.names ++ filter.fields))) (Request.update table filter row) := by
  have decides := (decides_checkName table).bind fun _ => (decides_checkNames row.names).bind fun _ =>
    (decides_ofFilter filter).give fun predicate =>
      Call.mk .run (.update table row.names predicate.tests) (row.values ++ predicate.params)
  rwa [Check.ofNames, Check.ofNames, ← List.map_append] at decides

theorem decides_delete (table : String) (filter : Filter) :
    Decides (Check.ofNames (table :: filter.fields)) (Request.delete table filter) :=
  (decides_checkName table).bind fun _ => (decides_ofFilter filter).give _

theorem decides_select (spec : QuerySpec) :
    Decides (Check.ofNames [spec.table] ++ (Check.ofProjection spec.columns ++
      Check.ofNames (spec.filter.fields ++ spec.order.keys.map (·.column)))) (Request.select spec) := by
  have columns : Decides (Check.ofProjection spec.columns) (Request.checkProjection [] spec.columns) :=
    decides_checkProjection [] spec.columns
  rw [Check.ofNames, Check.ofNames, List.map_append]
  exact (decides_checkName spec.table).bind fun _ => columns.bind fun _ =>
    (decides_ofFilter spec.filter).bind fun _ => (decides_checkNames _).give _

/-- All checks of an operation pass exactly if its names are as they should be. -/
theorem Operation.Checked.passes_iff {operation : Operation} (checked : operation.Checked checks) :
    (∀ check ∈ checks, check.Passes) ↔ operation.Proper := by
  have plain (other : operation.projected = []) :
      (∀ name ∈ operation.plainNames, Plain name) ↔ operation.Proper := by
    refine ⟨fun named => ⟨named, ?_, ?_⟩, fun proper => proper.named⟩
    · simp [other]
    · simp [other]
  have added : Plain addedColumn := isIdentifier_iff.mp isIdentifier_added
  have reserved {names : List String} :
      (∀ name ∈ withReserved names, Plain name) ↔ ∀ name ∈ names, Plain name := by
    simp only [mem_withReserved, or_imp, forall_and]
    exact and_iff_left fun name same => same ▸ added
  cases checked with
  | createTable table spec =>
    rw [← plain rfl, passes_ofNames, List.forall_mem_cons, reserved]
    exact List.forall_mem_cons.symm
  | insert table row =>
    rw [← plain rfl, passes_ofNames, List.forall_mem_cons, reserved]
    exact List.forall_mem_cons.symm
  | select spec =>
    rw [List.forall_mem_append, List.forall_mem_append, passes_ofNames, passes_ofNames, passes_ofProjection]
    constructor
    · rintro ⟨table, ⟨columns, apart⟩, others⟩
      exact ⟨List.forall_mem_cons.mpr ⟨table _ (List.mem_singleton_self _), others⟩, columns, apart⟩
    · rintro ⟨named, columns, apart⟩
      obtain ⟨table, others⟩ := List.forall_mem_cons.mp named
      exact ⟨by simpa using table, ⟨columns, apart⟩, others⟩
  | _ => rw [← plain rfl, passes_ofNames]; rfl

/-- Either all is as it should be, or there is a first check that fails. -/
theorem Operation.Checked.improper_iff {operation : Operation} (checked : operation.Checked checks) :
    ¬ operation.Proper ↔ ∃ check, FirstFailure checks check := by
  rw [← checked.passes_iff]
  exact ⟨(passes_or_fails checks).resolve_left, fun ⟨check, fails⟩ => fails.not_passes⟩

namespace Session

variable {σ : Type} {backend : Backend σ} {s s' : Session σ} {context : Context} {happened : List Happening}

/-! ## Checks of operations -/

/-- What an operation starts with: the error of the first check that fails ends it, and if all checks pass, a
statement is sent, perhaps after observers were called. -/
structure Guarded (checks : List Check) (s : Session σ) (context : Context) (p : Progress σ) : Prop where
  refuses : ∀ check, FirstFailure checks check → p = s.refuse context (.store check.error)
  sends : (∀ check ∈ checks, check.Passes) → ∃ s' tasks call next,
    p = (s', tasks ++ [.send call next]) ∧ ∀ task ∈ tasks, task.foreign = true

theorem guarded_request (s : Session σ) (context : Context) {request : Except Error Call}
    (decides : Decides checks request) (next : Continuation) :
    Guarded checks s context (s.request context request next) where
  refuses check fails := by rw [decides.fails check fails, Session.request]
  sends passes := by
    obtain ⟨call, accepted⟩ := decides.passes passes
    exact ⟨s, [], call, next, by rw [accepted, Session.request]; rfl, List.forall_mem_nil _⟩

theorem guarded_operate (s : Session σ) (context : Context) {operation : Operation}
    (checked : operation.Checked checks) : Guarded checks s context (s.operate context operation) := by
  cases checked with
  | createTable table spec => exact guarded_request s context (decides_createTable table spec) _
  | createIndex table column => exact guarded_request s context (decides_createIndex table column) _
  | schema table => exact guarded_request s context (decides_tableInfo table) _
  | dropTable table =>
    -- The observers of the table are called before the statement is sent, but behind the check.
    have decides := decides_dropTable table
    constructor
    · intro check fails
      rw [operate, decides.fails check fails]
    · intro passes
      obtain ⟨call, accepted⟩ := decides.passes passes
      rw [operate, accepted]
      refine ⟨_, [_], call, _, rfl, fun task member => ?_⟩
      rw [List.mem_singleton.mp member]
      rfl
  | insert table row => exact guarded_request s context (decides_insert s.now table row) _
  | update table filter row => exact guarded_request s context (decides_update table filter row) _
  | delete table filter => exact guarded_request s context (decides_delete table filter) _
  | select spec => exact guarded_request s context (decides_select spec) _

/-- A statement that waits behind code of others is sent. -/
theorem Own.sends_behind {tasks : List Task} {call : Call} {next : Continuation}
    (own : Own backend s (s', tasks ++ [.send call next]) happened)
    (foreign : ∀ task ∈ tasks, task.foreign = true) : .sent call ∈ happened := by
  induction tasks generalizing s s' happened with
  | nil =>
    obtain ⟨after, answer, rest, split, -⟩ := own.send
    rw [split]
    exact List.mem_append_right _ (List.mem_cons_self ..)
  | cons task tasks ih =>
    rw [List.forall_mem_cons] at foreign
    obtain ⟨after, rest, split, behind⟩ := own.foreign foreign.1
    rw [split]
    exact List.mem_append_right _ (ih behind foreign.2)

theorem Own.refused {e : Error} (own : Own backend s (s.refuse context (.store e)) happened) :
    happened = [.finished context (.failed (.store e))] := by
  have ends : Own backend s (s, [.conclude context (.failed (.store e))]) happened := own
  rw [ends.conclude, since_of_same rfl]
  rfl

variable {operation : Operation} {check : Check}

/-- An operation whose checks fail ends with the error of the first that does, and nothing else happens. -/
theorem Own.fails (own : Own backend s (s.operate context operation) happened)
    (checked : operation.Checked checks) (fails : FirstFailure checks check) :
    happened = [.finished context (.failed (.store check.error))] := by
  rw [(guarded_operate s context checked).refuses check fails] at own
  exact own.refused

/-- An operation sends a statement exactly if its names are as they should be. -/
theorem Own.sends_iff (own : Own backend s (s.operate context operation) happened)
    (checked : operation.Checked checks) : (∃ call, .sent call ∈ happened) ↔ operation.Proper := by
  constructor
  · rintro ⟨call, sent⟩
    by_contra improper
    obtain ⟨check, fails⟩ := checked.improper_iff.mp improper
    rw [own.fails checked fails] at sent
    cases List.mem_singleton.mp sent
  · intro proper
    obtain ⟨s', tasks, call, next, starts, foreign⟩ :=
      (guarded_operate s context checked).sends (checked.passes_iff.mpr proper)
    rw [starts] at own
    exact ⟨call, own.sends_behind foreign⟩

section Fetches

variable {key : Nat} {q : Query}

/-- A query whose selection is refused is delivered the error. -/
theorem fetch_refused (query : s.queries[key]? = some q) (active : q.active = true) {e : Error}
    (invalid : Request.select q.spec = .error e) :
    s.fetch key = (s.startFetch key (q.started + 1)).deliver key (q.started + 1) (.error e) := by
  simp [fetch, query, active, invalid]

/-- A query whose selection is accepted sends it. -/
theorem fetch_accepted (query : s.queries[key]? = some q) (active : q.active = true) {call : Call}
    (valid : Request.select q.spec = .ok call) : ∃ next, .send call next ∈ (s.fetch key).2 := by
  simp [fetch, query, active, valid]

theorem fetch_fails (query : s.queries[key]? = some q) (active : q.active = true)
    (checked : (Operation.data (.select q.spec)).Checked checks) (fails : FirstFailure checks check) :
    s.fetch key = (s.startFetch key (q.started + 1)).deliver key (q.started + 1) (.error check.error) := by
  cases checked
  exact fetch_refused query active ((decides_select q.spec).fails check fails)

/-- A query sends a statement exactly if the names of its selection are as they should be. -/
theorem fetch_sends_iff (query : s.queries[key]? = some q) (active : q.active = true) :
    (∃ call next, .send call next ∈ (s.fetch key).2) ↔ (Operation.data (.select q.spec)).Proper := by
  have checked := Operation.Checked.select q.spec
  rw [← checked.passes_iff, (decides_select q.spec).passes_iff]
  constructor
  · rintro ⟨call, next, sends⟩
    cases request : Request.select q.spec with
    | ok call => exact ⟨call, rfl⟩
    | error e =>
      rw [fetch_refused query active request] at sends
      exact absurd sends (deliver_quiet _ key _ _ call next)
  · rintro ⟨call, valid⟩
    exact ⟨call, fetch_accepted query active valid⟩

end Fetches

/-- Validation is complete, in order and free of effects. An operation that sends one statement about a table
sends it exactly if its names are as they should be, whatever the storage and the observers do; otherwise it
ends with the error of the first check that fails, and neither the session nor its storage is touched. Every
command that calls an operation starts as the operation does, and every fetch of a query is checked as a
selection is. -/
theorem validation_decides (backend : Backend σ) :
    (∀ (s : Session σ) context operation checks, Operation.Checked operation checks →
      (∃ happened, Own backend s (s.operate context operation) happened) ∧
      (∀ happened, Own backend s (s.operate context operation) happened →
        ((∃ call, .sent call ∈ happened) ↔ operation.Proper) ∧
        ∀ check, FirstFailure checks check → happened = [.finished context (.failed (.store check.error))]) ∧
      (¬ operation.Proper ↔ ∃ check, FirstFailure checks check) ∧
      ∀ check, FirstFailure checks check →
        s.operate context operation = (s, [.conclude context (.failed (.store check.error))])) ∧
    (∀ (s : Session σ) context command operation, Command.Calls command operation →
      s.ask backend context command = (s.record (.asked command)).operate context operation) ∧
    ∀ (s : Session σ) key q checks, s.queries[key]? = some q → q.active = true →
      Operation.Checked (.data (.select q.spec)) checks →
        ((∃ call next, .send call next ∈ (s.fetch key).2) ↔ (Operation.data (.select q.spec)).Proper) ∧
        ∀ check, FirstFailure checks check → s.fetch key =
          (s.startFetch key (q.started + 1)).deliver key (q.started + 1) (.error check.error) := by
  refine ⟨fun s context operation checks checked => ?_,
    fun s context command operation calls => ask_operate backend s context calls, ?_⟩
  · exact ⟨own_exists s _ _, fun happened own => ⟨own.sends_iff checked, fun check => own.fails checked⟩,
      checked.improper_iff, (guarded_operate s context checked).refuses⟩
  · intro s key q checks query active checked
    exact ⟨fetch_sends_iff query active, fun check => fetch_fails query active checked⟩

/-- A selection with five faults: an entry that stands twice, one that is no column, a field with a blank, and
a column of the order that is empty and one that is too long. -/
def spoiled : QuerySpec where
  table := "notes"
  columns := ["title", "*", "title", "1st"]
  filter := ⟨[⟨"the title", .equals .null⟩]⟩
  order := ⟨[⟨"", .ascending⟩, ⟨String.ofList (List.replicate 65 'a'), .ascending⟩]⟩

/-- A session with a query that makes this selection. -/
def spoiledQuery : Session Unit := ((start () true 0).addQuery spoiled "list" []).2

/-- A session with a subscriber to the notes, who unsubscribes when a note is dropped. -/
def followedNotes : Session Unit := (start () true 0).addListener "notes" "log" [[.unsubscribe "log"]]

/-- The first fault decides, for the selection and for the query. A table of a proper name is dropped after
its subscriber was called. -/
theorem spoiled_refused :
    (∃ checks, Operation.Checked (.data (.select spoiled)) checks ∧
      FirstFailure checks (.new "title" ["title", "*"]) ∧
      (∃ happened, Own .mute (start () true 0) ((start () true 0).operate .top (.data (.select spoiled)))
        happened ∧ happened = [.finished .top (.failed (.store (.duplicateColumn "title")))]) ∧
      ∃ q, spoiledQuery.queries[0]? = some q ∧ q.active = true ∧ q.spec = spoiled ∧
        spoiledQuery.fetch 0 =
          (spoiledQuery.startFetch 0 1).deliver 0 1 (.error (.duplicateColumn "title"))) ∧
    (Operation.dropTable "notes").Proper ∧
    (∃ happened, Own .mute followedNotes (followedNotes.operate .top (.dropTable "notes")) happened ∧
      ∃ call, .sent call ∈ happened) ∧
    Command.Calls (.dropTable "notes") (.dropTable "notes") ∧
    followedNotes.ask .mute .top (.dropTable "notes") =
      (followedNotes.record (.asked (.dropTable "notes"))).operate .top (.dropTable "notes") := by
  obtain ⟨operations, commands, queries⟩ := validation_decides Backend.mute
  have notes : Plain "notes" := isIdentifier_iff.mp (by decide)
  have title : Plain "title" := isIdentifier_iff.mp (by decide)
  have again : "title" ∈ ["title", "*"] := List.mem_cons_self ..
  have fails : FirstFailure (Check.ofNames ["notes"] ++ (Check.ofProjection spoiled.columns ++
      Check.ofNames (spoiled.filter.fields ++ spoiled.order.keys.map (·.column))))
      (.new "title" ["title", "*"]) :=
    .later notes (.later (.inr title) (.later List.not_mem_nil (.later (.inl rfl)
      (.later (show "*" ∉ ["title"] by decide) (.later (.inr title) (.here (not_not_intro again)))))))
  have selection := operations (start () true 0) .top _ _ (.select spoiled)
  obtain ⟨happened, own⟩ := selection.1
  have dropped := operations followedNotes .top _ _ (.dropTable "notes")
  obtain ⟨happened', own'⟩ := dropped.1
  have proper : (Operation.dropTable "notes").Proper := ⟨by simpa [Operation.plainNames, Operation.names], by
    simp [Operation.projected], by simp [Operation.projected]⟩
  refine ⟨⟨_, .select spoiled, fails, ⟨happened, own, (selection.2.1 happened own).2 _ fails⟩, _, rfl, rfl, rfl,
    (queries spoiledQuery 0 _ _ rfl rfl (.select spoiled)).2 _ fails⟩, proper,
    ⟨happened', own', (dropped.2.1 happened' own').1.mpr proper⟩, .dropTable "notes",
    commands _ _ _ _ (.dropTable "notes")⟩

end Session

end LiveTable
