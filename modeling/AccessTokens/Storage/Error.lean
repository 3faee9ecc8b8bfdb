/-!
# What can go wrong in a store

A store answers with an error when a record is missing or expired, when an id or a digest is taken, when
it cannot give an id, or when what lies under it fails. The database engine, its migrations and the
operating system word their own errors, so that those three have no wording here.
-/

namespace AccessTokens

/-- Why a store, or the opening of one, failed. -/
inductive StorageError
  | notFound
  | expired
  /-- An id or a digest is already stored. -/
  | duplicate (text : String)
  /-- A record cannot be stored, or a row cannot be read. -/
  | database (text : String)
  /-- A location names no store. -/
  | invalidLocation (text : String)
  /-- The database engine failed. -/
  | engine
  /-- The migrations of a database failed. -/
  | migration
  /-- The file system failed. -/
  | files
  deriving DecidableEq

/-- The wording of an error, unless it is worded elsewhere. -/
def StorageError.message? : StorageError → Option String
  | .notFound => some "Token not found"
  | .expired => some "Token expired"
  | .duplicate text => some ("Duplicate token: " ++ text)
  | .database text => some ("Database error: " ++ text)
  | .invalidLocation text => some ("Invalid storage configuration: " ++ text)
  | .engine | .migration | .files => none

end AccessTokens
