import LiveTable.Disk.Connection
import LiveTable.Proofs.Answering
import LiveTable.Proofs.Executions

/-!
# Storages that execute statements

Of a storage that keeps tables and indexes it is enough to know what the statements do to them that it
accepts: what it refuses changes nothing, and opening it again brings back what it had, or nothing. Which
statements it refuses, which number a new record gets and what is answered to a question is left open. So
what statements keep, every run on such a storage keeps.
-/

namespace LiveTable

variable {σ : Type}

/-- A storage executes the statements of the calls that are made to it on what it has. -/
structure Backend.Executes (backend : Backend σ) (content : σ → Database.Content) : Prop where
  /-- A call that is refused changes nothing, and one that is accepted does what its statement says. -/
  answers : ∀ call, call.Made → (∀ text, call.statement ≠ .verbatim text) → ∀ storage,
    (∃ message, (backend.answer call storage).1 = .failed message) ∧
        content (backend.answer call storage).2 = content storage ∨
      Database.Executed (content storage) call.params call.statement (backend.answer call storage).1
        (content (backend.answer call storage).2)
  reopens : ∀ old new, backend.reopen old = .ok new → content new = content old ∨ content new = default

/-- What an empty storage has and every statement of a run keeps, the run keeps. -/
theorem Session.Later.content {backend : Backend σ} {p p' : Progress σ} {content : σ → Database.Content}
    {kept : Database.Content → Prop} (executes : backend.Executes content) (reachable : Reachable backend p)
    (later : Later backend p p') (empty : kept default)
    (own : ∀ call, .sent call ∈ p'.1.history → ∀ text, call.statement ≠ .verbatim text)
    (keeps : ∀ storage call, call.Made → .sent call ∈ p'.1.history → kept (content storage) →
      Database.Executed (content storage) call.params call.statement (backend.answer call storage).1
        (content (backend.answer call storage).2) → kept (content (backend.answer call storage).2))
    (first : kept (content p.1.storage)) : kept (content p'.1.storage) := by
  refine later.maintains (fun storage => kept (content storage)) reachable ?_ ?_ first
  · intro old new opens had
    exact (executes.reopens old new opens).elim (fun same => same ▸ had) fun none => none ▸ empty
  · intro storage call made sent had
    rcases executes.answers call made (own call sent) storage with ⟨-, same⟩ | executed
    · exact same ▸ had
    · exact keeps storage call made sent had executed

/-! ## Databases in memory and on a disk -/

/-- A database answers a call with a failure and stays as it is, or it does what the statement says. -/
theorem Database.answer_executes (call : Call) (given : ∀ text, call.statement ≠ .verbatim text)
    (db : Database) : (∃ message, (db.answer call).1 = .failed message) ∧
        (db.answer call).2.content = db.content ∨
      Executed db.content call.params call.statement (db.answer call).1 (db.answer call).2.content := by
  refine answer_cases given |>.imp_left ?_
  rintro ⟨message, failed⟩
  exact ⟨⟨message, congrArg Prod.fst failed⟩, congrArg (·.2.content) failed⟩

theorem executes_memory : Database.memoryBackend.Executes (·.content) where
  answers call _ := Database.answer_executes call
  reopens old new opens := by
    cases opens
    exact .inr rfl

/-- Making directories leaves alone what stands on a disk. -/
theorem Disk.get?_makeDirectories {places : List (List String)} {disk disk' : Disk} {path : String}
    {entry : Entry} (made : disk.makeDirectories? places = some disk')
    (there : disk.get? path = some entry) : disk'.get? path = some entry := by
  induction places generalizing disk with
  | nil =>
    cases made
    exact there
  | cons place places ih =>
    rw [makeDirectories?, List.foldlM_cons, Option.bind_eq_bind, Option.bind_eq_some_iff] at made
    obtain ⟨between, first, made⟩ := made
    refine ih made ?_
    unfold makeDirectory? at first
    split at first
    · rename_i missing
      rw [Option.ite_none_left_eq_some] at first
      obtain ⟨-, first⟩ := first
      cases first
      have other : pathOf place ≠ path := by
        rintro rfl
        unfold entry? at missing
        split at missing
        · cases missing
        · cases missing.symm.trans there
      rw [put, Ordered.get?_insert, if_neg other]
      exact there
    · cases first
      exact there
    · cases first

/-- Applying the settings to a database keeps its content. -/
theorem content_configure {config : Config} {site : Site} {content : Database.Content} {database : Database}
    (applied : Connection.configure config site (some (.database content)) = .ok database) :
    database.content = content := by
  unfold Connection.configure at applied
  split at applied
  · cases applied
  · cases applied
    rfl

/-- Where nothing stands, a connection is opened to an empty database. -/
theorem content_configure_none {config : Config} {site : Site} {database : Database}
    (applied : Connection.configure config site none = .ok database) : database.content = default := by
  unfold Connection.configure at applied
  split at applied
  · cases applied
  · cases applied
    rfl

theorem map_eq_ok {ε α β : Type} {x : Except ε α} {f : α → β} {b : β} :
    x.map f = .ok b ↔ ∃ a, x = .ok a ∧ f a = b := by
  cases x <;> simp [Except.map]

/-- A connection finds again what was closed, if it is kept on the disk. -/
theorem executes_connection : Connection.backend.Executes (·.database.content) where
  answers call _ given connection := Database.answer_executes call given connection.database
  reopens old new opens := by
    have opens : Connection.connect old.env old.close old.config = .ok new := opens
    unfold Connection.connect at opens
    split at opens
    · cases opens
    · rename_i disk made
      cases site : Site.ofPath? old.env old.config.database with
      | none =>
        rw [site] at opens
        cases opens
      | some site' =>
        simp only [site] at opens
        split at opens
        · rename_i openable
          obtain ⟨database, applied, rfl⟩ := map_eq_ok.mp opens
          cases site' with
          | memory => exact .inr (content_configure_none applied)
          | nameless => exact .inr (content_configure_none applied)
          | place names =>
            -- The root is a directory, so the place is another, and the closed database stands there.
            have stands : disk.entry? names = some (.database old.database.content) := by
              simp only [Site.entry?, Disk.entry?] at openable ⊢
              split
              · rename_i root
                simp [root, Connection.isOpenable] at openable
              · refine Disk.get?_makeDirectories made ?_
                simp only [Connection.close, site]
                exact (Ordered.get?_insert ..).trans (if_pos rfl)
            rw [Site.entry?, stands] at applied
            exact .inl (content_configure applied)
        · cases opens

end LiveTable
