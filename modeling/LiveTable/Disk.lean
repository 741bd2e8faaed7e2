import LiveTable.Config
import LiveTable.Database.Content
import LiveTable.Ordered
import LiveTable.Storage

/-!
# Disks

A disk has directories, texts and databases at its places. The root is a directory that is always
there. Directories that are missing can be made, unless something else is in the way.
-/

namespace LiveTable

/-- What stands at a place of a disk. -/
inductive Entry
  | directory
  | text (content : String)
  | database (content : Database.Content)
  /-- Something that the program may not open. -/
  | closed
  deriving DecidableEq

/-- A disk: what stands at each place, named by its path from the root. -/
abbrev Disk := Ordered Entry

namespace Disk

/-- The path of a place. -/
def pathOf (place : List String) : String := "/".intercalate place

/-- What stands at a place. -/
def entry? (disk : Disk) (place : List String) : Option Entry :=
  if place.isEmpty then some .directory else disk.get? (pathOf place)

/-- Put something at a place. -/
def put (disk : Disk) (place : List String) (entry : Entry) : Disk :=
  disk.insert (pathOf place) entry

/-- A directory at a place: it is made unless something is there, which must be a directory. No name
has a zero character in it. -/
def makeDirectory? (disk : Disk) (place : List String) : Option Disk :=
  match disk.entry? place with
  | none =>
    if (pathOf place).toList.contains '\x00' then none else some (disk.put place .directory)
  | some .directory => some disk
  | some _ => none

/-- Directories at places, one after the other. -/
def makeDirectories? (disk : Disk) (places : List (List String)) : Option Disk :=
  places.foldlM makeDirectory? disk

/-- The disk with a text at a path, and the directories on the way. -/
def withText (disk : Disk) (working path text : String) : Disk :=
  ((disk.makeDirectories? (Path.parents working path)).getD disk).put (Path.place working path)
    (.text text)

end Disk

namespace Config

/-- The configuration that is written at a path. -/
def load (env : Environment) (disk : Disk) (path : String) : Except OpenError Config :=
  match disk.entry? (Path.place env.workingDirectory path) with
  | some (.text text) =>
    match read? (default env) text with
    | some config => .ok config
    | none => .error (.configParse path)
  | _ => .error (.configRead path)

/-- The configuration that is read if none is named: the one at its usual path if something stands
there, or else the defaults. -/
def loadUsual (env : Environment) (disk : Disk) : Except OpenError Config :=
  match env.configPath? with
  | none => .ok (default env)
  | some path =>
    if (disk.entry? (Path.place env.workingDirectory path)).isSome then load env disk path
    else .ok (default env)

end Config

end LiveTable
