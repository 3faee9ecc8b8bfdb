import AccessTokens.Storage.Driver

/-!
# A store that answers as it is told

A scripted store holds nothing. Each of the five calls has an answer that was laid down beforehand, and
an answer that was not is that the record is missing. A stored record comes back with the id that was
laid down. The store remembers the calls it was asked, newest first.
-/

namespace AccessTokens.Storage

/-- The answers of a store that holds nothing, and the calls it was asked, newest first. -/
structure Scripted where
  store : Except StorageError Int64 := .error .notFound
  findByDigest : Except StorageError Record := .error .notFound
  findById : Except StorageError Record := .error .notFound
  revoke : Except StorageError Unit := .error .notFound
  touch : Except StorageError Unit := .error .notFound
  calls : List Call := []

namespace Scripted

/-- The answer to a call, whatever the clock. -/
def answerOf (s : Scripted) : (c : Call) → c.Answer
  | .store r => s.store.map fun id => { r with id := id }
  | .findByDigest _ => s.findByDigest
  | .findById _ => s.findById
  | .revoke _ => s.revoke
  | .touch _ => s.touch

/-- The driver of a scripted store. -/
def driver : Driver Scripted where
  answer c _ s := (s.answerOf c, { s with calls := c :: s.calls })

end Scripted

end AccessTokens.Storage
