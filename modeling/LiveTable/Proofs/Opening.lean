import LiveTable.CommandLine.Report
import LiveTable.Proofs.Lines

/-!
# Opening a store

A configuration may ask for any time to wait that sixty-four bits hold, and every such time can be written.
A connection can be told to wait for no more milliseconds than a signed number of thirty-two bits holds; where
opening comes to the point at which the time is set, a longer one stops the program instead of failing.
-/

namespace LiveTable

/-! ## Numbers as they are written -/

theorem digitIn?_of_isDigit {c : Char} (digit : c.isDigit = true) :
    Text.digitIn? 10 c = some (c.toNat - '0'.toNat) := by
  have range : 48 ≤ c.toNat ∧ c.toNat ≤ 57 := by
    simpa [Char.isDigit, UInt32.le_iff_toNat_le] using digit
  have value : Text.digit? c = some (c.toNat - 48) := by simp [Text.digit?, range]
  rw [Text.digitIn?, value]
  simp [Option.filter]
  omega

theorem numeralFrom_digits {digits : List Char} (all : ∀ c ∈ digits, c.isDigit = true) (value : Nat) :
    Text.numeralFrom 10 value digits = some (Nat.ofDigitChars 10 digits value) := by
  induction digits generalizing value with
  | nil => rfl
  | cons c rest ih =>
    rw [List.forall_mem_cons] at all
    rw [Text.numeralFrom, digitIn?_of_isDigit all.1, Nat.ofDigitChars_cons]
    exact ih all.2 _

theorem isDigit_toDigits (n : Nat) : ∀ c ∈ Nat.toDigits 10 n, c.isDigit = true :=
  fun _ member => Nat.isDigit_of_mem_toDigits (by decide) (by decide) member

/-- Only zero is written with a zero in front. -/
theorem eq_zero_of_toDigits {n : Nat} {rest : List Char} (zero : Nat.toDigits 10 n = '0' :: rest) : n = 0 := by
  induction n using Nat.strongRecOn generalizing rest with
  | ind n ih =>
    by_cases small : n < 10
    · rw [Nat.toDigits_of_lt_base small] at zero
      exact Nat.digitChar_eq_zero.mp (List.cons.inj zero).1
    · rw [Nat.toDigits_of_base_le (by decide) (by omega)] at zero
      cases front : Nat.toDigits 10 (n / 10) with
      | nil => exact absurd front Nat.toDigits_ne_nil
      | cons c more =>
        rw [front, List.cons_append] at zero
        obtain ⟨rfl, -⟩ := List.cons.inj zero
        have := ih (n / 10) (by omega) front
        omega

/-- A number is read as it is written. -/
theorem unsigned?_repr (n : Nat) : Config.unsigned? n.repr = some n := by
  have digits := isDigit_toDigits n
  have value : Text.numeral? 10 (Nat.toDigits 10 n) = some n := by
    rw [Text.numeral?, if_neg (by simp), numeralFrom_digits digits, Nat.ofDigitChars_toDigits] <;> decide
  have padded : Config.isPadded (Nat.toDigits 10 n) = false := by
    unfold Config.isPadded
    split
    · rename_i c rest front
      rw [eq_zero_of_toDigits front] at front
      cases front
    · rfl
  have body : Config.unsigned?.body (Nat.toDigits 10 n) = some n := by
    unfold Config.unsigned?.body
    -- No mark of another base consists of digits.
    split
    · rename_i front
      exact absurd (digits 'x' (by simp [front])) (by decide)
    · rename_i front
      exact absurd (digits 'o' (by simp [front])) (by decide)
    · rename_i front
      exact absurd (digits 'b' (by simp [front])) (by decide)
    · rw [padded, value]
      rfl
  unfold Config.unsigned?
  rw [Nat.toList_repr]
  split
  · rename_i front
    rw [front] at digits
    cases digits '+' (List.mem_cons_self ..)
  · exact body

/-! ## Configurations as they are written -/

namespace Config

/-- The word for a truth value. -/
def keysWord (keys : Bool) : String := if keys then "true" else "false"

/-- A text that sets how a database is opened. -/
def written (mode : JournalMode) (keys : Bool) (timeout : UInt64) : String :=
  String.ofList (Yaml.lines [("journal_mode", mode.name), ("foreign_keys", keysWord keys),
    ("busy_timeout_ms", timeout.toNat.repr)])

theorem entryWord_repr (timeout : UInt64) : Yaml.EntryWord timeout.toNat.repr where
  ne_nil := by
    rw [Nat.toList_repr]
    exact Nat.toDigits_ne_nil
  named c member := by
    rw [Nat.toList_repr] at member
    simp [isNameChar, Char.isAlphanum, isDigit_toDigits _ c member]
  short := by
    have bound : (Nat.toDigits 10 timeout.toNat).length ≤ 20 :=
      (Nat.length_toDigits_le_iff (by decide) (by decide)).mpr (by have := timeout.toNat_lt; omega)
    rw [Nat.toList_repr]
    omega

/-- Every way to open a database can be written, with any time to wait that sixty-four bits hold. -/
theorem read?_written (base : Config) (mode : JournalMode) (keys : Bool) (timeout : UInt64) :
    read? base (written mode keys timeout) =
      some { base with journalMode := mode, busyTimeout := timeout, foreignKeys := keys } := by
  have modes : Yaml.EntryWord mode.name := by cases mode <;> decide +kernel
  have truths : Yaml.EntryWord (keysWord keys) := by cases keys <;> decide +kernel
  have number : readUnsigned? (Yaml.wordNode timeout.toNat.repr) = some timeout := by
    have small : timeout.toNat < pow2 64 := timeout.toNat_lt
    simp [readUnsigned?, Yaml.wordNode, isBare, unsigned?_repr, small]
  have mode' : readMode? (Yaml.wordNode mode.name) = some mode := by cases mode <;> rfl
  have keys' : readBool? (Yaml.wordNode (keysWord keys)) = some keys := by cases keys <;> rfl
  have words : ∀ e ∈ [("journal_mode", mode.name), ("foreign_keys", keysWord keys),
      ("busy_timeout_ms", timeout.toNat.repr)], Yaml.EntryWord e.1 ∧ Yaml.EntryWord e.2 := by
    simp only [List.forall_mem_cons, List.not_mem_nil, false_imp_iff, implies_true, and_true]
    exact ⟨⟨by decide +kernel, modes⟩, ⟨by decide +kernel, truths⟩, by decide +kernel, entryWord_repr timeout⟩
  rw [read?, written, Yaml.read?_lines words]
  change ofFields? base [("journal_mode", Yaml.wordNode mode.name),
    ("foreign_keys", Yaml.wordNode (keysWord keys)), ("busy_timeout_ms", Yaml.wordNode timeout.toNat.repr)] = _
  simp [ofFields?, field?, number, mode', keys']

end Config

/-! ## Opening -/

namespace Connection

/-- Opening comes to the settings: the directories on the way can be made, the path leads somewhere, and the
database can be opened there. -/
def Arrives (env : Environment) (disk : Disk) (config : Config) : Prop :=
  ∃ made site, disk.makeDirectories? (Path.parents env.workingDirectory config.database) = some made ∧
    Site.ofPath? env config.database = some site ∧ isOpenable (site.entry? made) = true

theorem configure_stops {config : Config} {site : Site} {entry : Option Entry} :
    configure config site entry = .error .timeoutRange ↔ longestTimeout < config.busyTimeout.toNat := by
  unfold configure
  split
  · rename_i long
    exact iff_of_true rfl long
  · rename_i short
    split <;> exact iff_of_false nofun short

theorem map_configure_stops {α : Type} {config : Config} {site : Site} {entry : Option Entry}
    (f : Database → α) : (configure config site entry).map f = .error .timeoutRange ↔
      longestTimeout < config.busyTimeout.toNat := by
  have stops : configure config site entry = .error .timeoutRange ↔ _ := configure_stops
  rw [← stops]
  cases configure config site entry <;> simp [Except.map]

/-- Opening stops exactly where it comes to the settings with a time to wait that cannot be set. -/
theorem connect_stops {env : Environment} {disk : Disk} {config : Config} :
    connect env disk config = .error .timeoutRange ↔
      Arrives env disk config ∧ longestTimeout < config.busyTimeout.toNat := by
  unfold connect Arrives
  cases made : disk.makeDirectories? (Path.parents env.workingDirectory config.database) with
  | none => simp
  | some made =>
    cases leads : Site.ofPath? env config.database with
    | none => simp
    | some site =>
      simp only [Option.some.injEq, exists_and_left, exists_eq_left']
      split
      · rename_i openable
        rw [map_configure_stops]
        exact (and_iff_right openable).symm
      · rename_i blocked
        exact iff_of_false nofun fun arrives => blocked arrives.1

end Connection

/-! ## Command lines -/

namespace CommandLine

namespace Report

theorem code_ofOutcome (command : Command) (outcome : Outcome) : (ofOutcome command outcome).code ≤ 1 := by
  unfold ofOutcome
  repeat' split
  all_goals simp [failed, ok]

theorem code_ofOpenError {e : OpenError} (other : e ≠ .timeoutRange) : (ofOpenError e).code = 1 := by
  cases e
  case timeoutRange => exact absurd rfl other
  all_goals rfl

end Report

/-- No configuration stops the program while it is read. -/
theorem loadConfig_ne_timeoutRange (env : Environment) (disk : Disk) (i : Invocation) :
    i.loadConfig env disk ≠ .error .timeoutRange := by
  have load (path : String) : Config.load env disk path ≠ .error .timeoutRange := by
    unfold Config.load
    repeat' split
    all_goals nofun
  have usual : Config.loadUsual env disk ≠ .error .timeoutRange := by
    unfold Config.loadUsual
    repeat' split
    all_goals first | exact load _ | nofun
  have named (config : Except OpenError Config) (f : Config → Config) (fine : config ≠ .error .timeoutRange) :
      (config >>= fun c => .ok (f c)) ≠ .error .timeoutRange := by
    cases config with
    | ok c => nofun
    | error e => exact fine
  unfold Invocation.loadConfig
  cases i.config with
  | none => exact named _ _ usual
  | some path => exact named _ _ (load path)

/-- A command line gets to its store: it is understood, its configuration is read, and it is known how much is
logged. -/
def Starts (env : Environment) (disk : Disk) (arguments : List String) (config : Config) : Prop :=
  ∃ i, Invocation.read? arguments = some i ∧ i.loadConfig env disk = .ok config ∧ i.hasLevel config = true

/-- The code of a run is that of a program that stops exactly where opening its store stops; it is a small one
otherwise. -/
theorem code_run (env : Environment) (now : Int64) (disk : Disk) (arguments : List String) :
    ((run env now disk arguments).1.code = 101 ↔
        ∃ config, Starts env disk arguments config ∧ Connection.connect env disk config = .error .timeoutRange) ∧
      ((run env now disk arguments).1.code = 101 ∨ (run env now disk arguments).1.code ≤ 2) := by
  unfold Starts run
  cases understood : Invocation.read? arguments with
  | none => simp [Report.misuse]
  | some i =>
    simp only [Invocation.run]
    cases loaded : i.loadConfig env disk with
    | error e =>
      have other : e ≠ .timeoutRange := by
        rintro rfl
        exact loadConfig_ne_timeoutRange env disk i loaded
      simp [loaded, Report.code_ofOpenError other]
    | ok config =>
      cases level : i.hasLevel config with
      | false => simp [loaded, level, Report.failed]
      | true =>
        cases opened : Connection.connect env disk config with
        | error e =>
          by_cases stops : e = .timeoutRange
          · simp [loaded, level, opened, stops, and_assoc, Report.ofOpenError]
          · simp [loaded, level, opened, stops, and_assoc, Report.code_ofOpenError stops]
        | ok connection =>
          have small := Report.code_ofOutcome i.command
            ((Session.start connection false now).give Connection.backend i.command).outcome
          have other := Nat.ne_of_lt (Nat.lt_of_le_of_lt small (by decide : 1 < 101))
          simp [loaded, level, opened, and_assoc, other, Nat.le_succ_of_le small]

end CommandLine

/-- Opening a store stops the program where it comes to the settings with a time to wait of more milliseconds than
a signed number of thirty-two bits holds, and nowhere else; a run of a command line, which ends with a small code
otherwise, then ends with that of a program that stops. Every time of sixty-four bits can be asked for by a text,
together with any journal mode and foreign keys of either kind. -/
theorem opening_stops (env : Environment) (disk : Disk) (config : Config) (mode : JournalMode) (keys : Bool)
    (timeout : UInt64) (now : Int64) (arguments : List String) :
    Config.read? config (Config.written mode keys timeout) =
        some { config with journalMode := mode, busyTimeout := timeout, foreignKeys := keys } ∧
      (Connection.connect env disk config = .error .timeoutRange ↔
        Connection.Arrives env disk config ∧ Connection.longestTimeout < config.busyTimeout.toNat) ∧
      ((CommandLine.run env now disk arguments).1.code = 101 ↔ ∃ config,
        CommandLine.Starts env disk arguments config ∧ Connection.Arrives env disk config ∧
          Connection.longestTimeout < config.busyTimeout.toNat) ∧
      ((CommandLine.run env now disk arguments).1.code = 101 ∨
        (CommandLine.run env now disk arguments).1.code ≤ 2) := by
  refine ⟨Config.read?_written config mode keys timeout, Connection.connect_stops, ?_,
    (CommandLine.code_run env now disk arguments).2⟩
  simp only [(CommandLine.code_run env now disk arguments).1, Connection.connect_stops]

/-- An environment that names no directories. -/
def Environment.bare : Environment := ⟨none, none, none, none, "/", []⟩

/-- A text that asks for a store in memory, and for one millisecond more than can be set. -/
def Config.patient : String := "database: ':memory:'\nbusy_timeout_ms: 2147483648\n"

/-- The text is accepted, and then stops the opening of the store and the run of a command. -/
theorem patient_stops :
    (∃ config, Config.read? (Config.default .bare) Config.patient = some config ∧
      Connection.connect .bare default config = .error .timeoutRange) ∧
    (CommandLine.run .bare 0 (Disk.withText default "/" "/notes.yaml" Config.patient)
      ["--config", "/notes.yaml", "tables"]).1.code = 101 := by
  refine ⟨⟨⟨":memory:", .wal, 2147483648, true, "warn"⟩, by decide +kernel, rfl⟩, by decide +kernel⟩

end LiveTable
