import LiveTable.Path

/-!
# The environment

Where the program looks for its configuration and its database if nothing else is said: in the
directories that the environment names, or else in those of the home directory. A path can be given as
a URI as well; what it stands for is known to the environment.
-/

namespace LiveTable

/-- Where a database is kept. -/
inductive Site
  /-- In memory. -/
  | memory
  /-- In a file without a name. -/
  | nameless
  | place (place : List String)
  deriving DecidableEq

/-- The variables of the environment that matter, and how databases are found in it. -/
structure Environment where
  /-- The home directory. -/
  home : Option String
  /-- The home directory that the user's account has. -/
  accountHome : Option String
  /-- The directory of data. -/
  dataHome : Option String
  /-- The directory of configurations. -/
  configHome : Option String
  workingDirectory : String
  /-- Where the URIs lead that name databases; no other URI does. -/
  uris : List (String × Site) := []
  deriving DecidableEq

namespace Environment

/-- The name of the program's directories. -/
def programName : String := "tablestore"

/-- The home directory: the one of the environment unless it is empty, or that of the account. -/
def homeDirectory? (env : Environment) : Option String :=
  (env.home.filter (!·.isEmpty)).orElse fun _ => env.accountHome

/-- A directory that is named by an absolute path, or else one of the home directory. -/
def directory? (env : Environment) (named : Option String) (atHome : String) : Option String :=
  (named.filter Path.isAbsolute).orElse fun _ => env.homeDirectory?.map (Path.join · atHome)

/-- The configuration that is read if none is named. -/
def configPath? (env : Environment) : Option String :=
  (env.directory? env.configHome ".config").map fun directory =>
    Path.join (Path.join directory programName) "config.yaml"

/-- The database that is used if none is named. -/
def databasePath (env : Environment) : String :=
  Path.join (Path.join ((env.directory? env.dataHome ".local/share").getD ".") programName)
    "tablestore.db"

end Environment

end LiveTable
