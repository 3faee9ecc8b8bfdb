import Std.Data.ExtTreeMap
import AccessTokens.Storage.Driver
import AccessTokens.Time.Timestamp

/-!
# A store in a database

A table holds one row for each record, with its instants as text (`Row`). The id is the key of the table
and the digest is unique. The table remembers the greatest id it ever held, and the ids it gives lie
above that, so that it gives no id twice; once the greatest id of all has been held, it can give none.

A row is written with the zone `+00:00` and read in the strict form, the instants in the order of
their columns. Not every instant reads back: a year outside 0 to 9999 has a sign, which the strict form
does not admit. Rows that were put in by other hands (`Table.insert`) may hold any text.

A database has no table before its migrations (`Database.migrate`), and then every call fails in the
engine.
-/

namespace AccessTokens.Storage

open Time (Instant)

/-- What a row holds beside its id. -/
@[ext] structure Row where
  userId : Int64
  digest : String
  name : Option String
  abilities : String
  createdAt : String
  expiresAt : Option String
  lastUsedAt : Option String
  deriving DecidableEq

/-- The row of a record. -/
def Row.ofRecord (r : Record) : Row where
  userId := r.userId
  digest := r.digest
  name := r.name
  abilities := r.abilities
  createdAt := r.createdAt.offsetText
  expiresAt := r.expiresAt.map Instant.offsetText
  lastUsedAt := r.lastUsedAt.map Instant.offsetText

/-- Reads the text of an instant in a column. -/
def readTimestamp (column text : String) : Except StorageError Instant :=
  match Time.readStrict? text with
  | some t => .ok t
  | none => .error (.database ("Invalid " ++ column ++ " timestamp"))

/-- Reads the text of an instant that may be absent. -/
def readTimestamp? (column : String) : Option String → Except StorageError (Option Instant)
  | none => .ok none
  | some text => (readTimestamp column text).map some

/-- The record of a row. The first of its instants that cannot be read is the error. -/
def Row.toRecord (id : Int64) (row : Row) : Except StorageError Record := do
  let createdAt ← readTimestamp "created_at" row.createdAt
  let expiresAt ← readTimestamp? "expires_at" row.expiresAt
  let lastUsedAt ← readTimestamp? "last_used_at" row.lastUsedAt
  return {
    id := id
    userId := row.userId
    digest := row.digest
    name := row.name
    abilities := row.abilities
    createdAt := createdAt
    expiresAt := expiresAt
    lastUsedAt := lastUsedAt }

/-- The rows by id, and the greatest id that the table ever held. -/
structure Table where
  rows : Std.ExtTreeMap Int64 Row := ∅
  greatestId : Int64 := 0

/-- Why a row was not put in. -/
inductive Table.Refusal
  | full
  | idTaken
  | digestTaken
  deriving DecidableEq

namespace Table

/-- The row with a digest, and its id. -/
def find? (digest : String) (t : Table) : Option (Int64 × Row) :=
  t.rows.toList.find? fun entry => entry.2.digest = digest

/-- Puts in a row, with an id of the table's choice if none is given. -/
def insert (id? : Option Int64) (row : Row) (t : Table) : Except Refusal (Int64 × Table) :=
  if id? = none ∧ t.greatestId = Int64.maxValue then .error .full
  else
    let id := id?.getD (t.greatestId + 1)
    -- The key is looked at before the digest.
    if t.rows.contains id then .error .idTaken
    else if (t.find? row.digest).isSome then .error .digestTaken
    else .ok (id, { rows := t.rows.insert id row, greatestId := max t.greatestId id })

/-- Removes every row with a digest. -/
def erase (digest : String) (t : Table) : Table :=
  { t with rows := t.rows.filter fun _ row => row.digest ≠ digest }

/-- Writes the time of the last use into a row. -/
def touch (id : Int64) (now : Instant) (t : Table) : Table :=
  { t with rows := t.rows.modify id fun row => { row with lastUsedAt := some now.offsetText } }

end Table

/-- A database, whose table is absent before its migrations. -/
structure Database where
  table : Option Table := none

namespace Database

/-- A database before its migrations. -/
def bare : Database := {}

/-- Makes the table if it is absent. -/
def migrate (d : Database) : Database := { table := some (d.table.getD {}) }

/-- An empty database after its migrations. -/
def empty : Database := bare.migrate

/-- The number of rows, if there is a table. -/
def size? (d : Database) : Option Nat := d.table.map fun t => t.rows.size

/-- What a caller is told of a refusal. -/
def refusalError : Table.Refusal → StorageError
  | .full => .engine
  | .idTaken => .duplicate "UNIQUE constraint failed: personal_access_tokens.id"
  | .digestTaken => .duplicate "UNIQUE constraint failed: personal_access_tokens.token"

/-- Keeps a new record. An id of zero leaves the choice to the table. -/
def store (r : Record) (d : Database) : Except StorageError Record × Database :=
  if r.id < 0 then (.error (.database ("invalid token id " ++ Decimal.text r.id)), d)
  else
    match d.table with
    | none => (.error .engine, d)
    | some t =>
      -- An absent id is what makes the table choose one.
      match t.insert (if r.id = 0 then none else some r.id) (Row.ofRecord r) with
      | .error refusal => (.error (refusalError refusal), d)
      | .ok (id, t') => (.ok { r with id := id }, { table := some t' })

/-- The record of a row that was looked for. -/
def found (now : Instant) : Option (Int64 × Row) → Except StorageError Record
  | none => .error .notFound
  | some (id, row) => do unexpired (← row.toRecord id) now

/-- The record with a digest. -/
def findByDigest (digest : String) (now : Instant) (d : Database) : Except StorageError Record :=
  match d.table with
  | none => .error .engine
  | some t => found now (t.find? digest)

/-- The record with an id. -/
def findById (id : Int64) (now : Instant) (d : Database) : Except StorageError Record :=
  match d.table with
  | none => .error .engine
  | some t => found now (t.rows[id]?.map fun row => (id, row))

/-- Removes the record with a digest. -/
def revoke (digest : String) (d : Database) : Except StorageError Unit × Database :=
  match d.table with
  | none => (.error .engine, d)
  | some t =>
    if (t.find? digest).isSome then (.ok (), { table := some (t.erase digest) })
    else (.error .notFound, d)

/-- Marks the record with an id as used now, without reading its row. -/
def touch (id : Int64) (now : Instant) (d : Database) : Except StorageError Unit × Database :=
  match d.table with
  | none => (.error .engine, d)
  | some t =>
    if t.rows.contains id then (.ok (), { table := some (t.touch id now) })
    else (.error .notFound, d)

/-- Answers a call. -/
def answer : (c : Call) → Instant → Database → c.Answer × Database
  | .store r, _, d => d.store r
  | .findByDigest g, now, d => (d.findByDigest g now, d)
  | .findById i, now, d => (d.findById i now, d)
  | .revoke g, _, d => d.revoke g
  | .touch i, now, d => d.touch i now

/-- A record that could not be stored is logged when the engine failed. -/
def logsFailure : (c : Call) → c.Answer → Database → Bool
  | .store _, .error .engine, _ => true
  | _, _, _ => false

/-- The driver of a database. -/
def driver : Driver Database where
  answer := answer
  logsFailure := logsFailure

end Database

end AccessTokens.Storage
