import AccessTokens.Storage.Error
import AccessTokens.Text.Ends

/-!
# Locations of stores

A location is a text that names a store: `memory`, or `sqlite:` and a path (`Location.ofUrl`). The path
`:memory:` stands for a database in memory and brings its own settings, with a single connection; every
other path has the settings of a file, and loses all the pairs of slashes it begins with.
-/

namespace AccessTokens.Storage

/-- How a database is opened. -/
structure Settings where
  path : String := "tokenkeep.db"
  writeAheadLog : Bool := true
  maxConnections : Nat := 10
  busyTimeoutSeconds : Nat := 30
  deriving DecidableEq

namespace Settings

/-- The path of a database in memory. -/
def memoryPath : String := ":memory:"

/-- The settings of a database in memory, which lives as long as its one connection. -/
def inMemory : Settings where
  path := memoryPath
  writeAheadLog := false
  maxConnections := 1
  busyTimeoutSeconds := 5

/-- The settings of a database in memory are told by its path. -/
def isInMemory (s : Settings) : Bool := s.path = memoryPath

end Settings

/-- Where records are kept. -/
inductive Location
  | memory
  | sqlite (settings : Settings)
  deriving DecidableEq

namespace Location

/-- A path without the pairs of slashes it begins with. -/
def withoutSlashPairs : List Char → List Char
  | '/' :: '/' :: cs => withoutSlashPairs cs
  | cs => cs

/-- The location that a text names. -/
def ofUrl (url : String) : Except StorageError Location :=
  if url = "memory" then .ok .memory
  else
    match Text.after? "sqlite:".toList url.toList with
    | none | some [] => .error (.invalidLocation ("Unsupported database URL: " ++ url))
    | some path =>
      if path = Settings.memoryPath.toList then .ok (.sqlite .inMemory)
      else .ok (.sqlite { path := String.ofList (withoutSlashPairs path) })

end Location

end AccessTokens.Storage
