import AccessTokens.Record
import AccessTokens.Storage.Error

/-!
# Drivers of stores

A store of records is asked five things (`Storage.Call`), each of which has its own type of answer. A
driver answers a call at a reading of the clock, from a state of the store, and leaves a state
(`Storage.Driver`). Nothing else is known of a driver: it may be a table in memory, a database, or
anything that answers.

Every driver shares one rule, `Storage.unexpired`: a record that has been found is handed out only
while it is not expired.
-/

namespace AccessTokens.Storage

open Time (Instant)

/-- What a store is asked. -/
inductive Call
  /-- Keep a new record, with an id of the store's choice if the record has none. -/
  | store (r : Record)
  | findByDigest (digest : String)
  | findById (id : Int64)
  /-- Remove the record with a digest. -/
  | revoke (digest : String)
  /-- Mark the record with an id as used now. -/
  | touch (id : Int64)
  deriving DecidableEq

/-- The type of the answers to a call. -/
abbrev Call.Answer : Call → Type
  | .store _ | .findByDigest _ | .findById _ => Except StorageError Record
  | .revoke _ | .touch _ => Except StorageError Unit

/-- A store of records whose states are of type `σ`. -/
structure Driver (σ : Type) where
  /-- The answer to a call at a reading of the clock, and the state that it leaves. -/
  answer : (c : Call) → Instant → σ → c.Answer × σ
  /-- Tells whether a driver in some state logs an answer as a failure of its own. -/
  logsFailure : (c : Call) → c.Answer → σ → Bool := fun _ _ _ => false

/-- The answer that a found record makes, which is refused once the record is expired. -/
def unexpired (r : Record) (now : Instant) : Except StorageError Record :=
  if r.isExpiredAt now then .error .expired else .ok r

end AccessTokens.Storage
