import LiveTable.Database
import LiveTable.Disk

/-!
# Connections to databases on a disk

A connection is opened as a configuration says: the directories on the way are made, the place is
opened and the settings are applied. When it is closed, the content of the database is put back on
the disk. Some paths lead to no place: the database is then kept in memory or in a file without a
name, and is lost when it is closed.
-/

namespace LiveTable

/-- Where a path leads, if it leads anywhere: no path has a zero character in it, and a URI must be
known. -/
def Site.ofPath? (env : Environment) (path : String) : Option Site :=
  if path = ":memory:" then some .memory
  else if path.isEmpty then some .nameless
  else if path.toList.contains '\x00' then none
  else if Text.beginsWith "file:" path then env.uris.lookup path
  else some (.place (Path.place env.workingDirectory path))

/-- What stands where a database is kept. -/
def Site.entry? (disk : Disk) : Site → Option Entry
  | .place names => disk.entry? names
  | _ => none

/-- The journal mode in effect: memory has one of its own, and a file without a name cannot be
written ahead. -/
def Site.journalMode (mode : JournalMode) : Site → JournalMode
  | .memory => .memory
  | .nameless => if mode = .wal then .delete else mode
  | .place _ => mode

/-- An open connection. -/
structure Connection where
  env : Environment
  disk : Disk
  config : Config
  database : Database
  deriving DecidableEq

namespace Connection

/-- The longest time to wait that can be set, in milliseconds. -/
def longestTimeout : Nat := pow2 31 - 1

/-- The settings of a connection. -/
def settings (config : Config) (site : Site) : Database.Settings where
  journalMode := (site.journalMode config.journalMode).name
  busyTimeout := config.busyTimeout.toNat
  foreignKeys := config.foreignKeys

/-- Apply the settings to what stands at the place of a database. What cannot be read as a database
is not changed; an empty text is an empty database. -/
def configure (config : Config) (site : Site) (entry : Option Entry) :
    Except OpenError Database :=
  if longestTimeout < config.busyTimeout.toNat then .error .timeoutRange
  else
    match entry with
    | none | some (.text "") => .ok ⟨default, settings config site, 0⟩
    | some (.database content) => .ok ⟨content, settings config site, 0⟩
    | some _ => .error .configure

/-- Nothing stands in the way of a database. -/
def isOpenable : Option Entry → Bool
  | some .directory | some .closed => false
  | _ => true

/-- Open a connection. -/
def connect (env : Environment) (disk : Disk) (config : Config) : Except OpenError Connection :=
  match disk.makeDirectories? (Path.parents env.workingDirectory config.database) with
  | none => .error .directory
  | some disk =>
    match Site.ofPath? env config.database with
    | none => .error (.database config.database)
    | some site =>
      if isOpenable (site.entry? disk) then
        (configure config site (site.entry? disk)).map fun database => ⟨env, disk, config, database⟩
      else .error (.database config.database)

/-- The disk after the connection is closed. -/
def close (c : Connection) : Disk :=
  match Site.ofPath? c.env c.config.database with
  | some (.place place) => c.disk.put place (.database c.database.content)
  | _ => c.disk

/-- A connection as a storage; it can be closed and opened again. -/
def backend : Backend Connection where
  answer call c :=
    let (answer, database) := Database.answer call c.database
    (answer, { c with database })
  reopen c := connect c.env c.close c.config

end Connection

end LiveTable
