import Std.Data.ExtTreeMap
import AccessTokens.Storage.Driver
import AccessTokens.Text.Decimal

/-!
# A store in memory

The records are kept by id, with an index from digests to ids beside them, and a counter that is above
every id ever stored. Ids come from the counter, which only moves forward, so that an id of its choice
was never in use before, even by a record that has since been removed.

A record is checked before anything is changed: its digest may not be stored, its id may not be negative
or stored, and it may not be the greatest id there is, since the counter could not move beyond that.
-/

namespace AccessTokens.Storage

open Time (Instant)

/-- Records by id, ids by digest, and the next id to be given. -/
structure Memory where
  byId : Std.ExtTreeMap Int64 Record := ∅
  byDigest : Std.ExtTreeMap String Int64 := ∅
  nextId : Int64 := 1

namespace Memory

/-- The store that holds nothing. -/
def empty : Memory := {}

/-- The number of records, expired ones included. -/
def size (m : Memory) : Nat := m.byId.size

/-- Keeps a new record. An id of zero is replaced by the next one. -/
def store (r : Record) (m : Memory) : Except StorageError Record × Memory :=
  if m.byDigest.contains r.digest then
    (.error (.duplicate "token digest already stored"), m)
  else if r.id < 0 then
    (.error (.database ("invalid token id " ++ Decimal.text r.id)), m)
  else if r.id ≠ 0 ∧ m.byId.contains r.id then
    (.error (.duplicate ("token id " ++ Decimal.text r.id)), m)
  else
    let id := if r.id = 0 then m.nextId else r.id
    -- The counter would have to move beyond the greatest id.
    if id = Int64.maxValue then
      (.error (.database "token id space exhausted"), m)
    else
      let stored := { r with id := id }
      (.ok stored,
        { byId := m.byId.insert id stored
          byDigest := m.byDigest.insert r.digest id
          nextId := max m.nextId (id + 1) })

/-- The record with an id. -/
def findById (id : Int64) (now : Instant) (m : Memory) : Except StorageError Record :=
  match m.byId[id]? with
  | none => .error .notFound
  | some r => unexpired r now

/-- The record with a digest. -/
def findByDigest (digest : String) (now : Instant) (m : Memory) : Except StorageError Record :=
  match m.byDigest[digest]? with
  | none => .error .notFound
  | some id => m.findById id now

/-- Removes the record with a digest. -/
def revoke (digest : String) (m : Memory) : Except StorageError Unit × Memory :=
  match m.byDigest[digest]? with
  | none => (.error .notFound, m)
  | some id =>
    (.ok (), { m with byId := m.byId.erase id, byDigest := m.byDigest.erase digest })

/-- Marks the record with an id as used now. -/
def touch (id : Int64) (now : Instant) (m : Memory) : Except StorageError Unit × Memory :=
  match m.byId[id]? with
  | none => (.error .notFound, m)
  | some r => (.ok (), { m with byId := m.byId.insert id { r with lastUsedAt := some now } })

/-- Answers a call. -/
def answer : (c : Call) → Instant → Memory → c.Answer × Memory
  | .store r, _, m => m.store r
  | .findByDigest d, now, m => (m.findByDigest d now, m)
  | .findById i, now, m => (m.findById i now, m)
  | .revoke d, _, m => m.revoke d
  | .touch i, now, m => m.touch i now

/-- The driver of a store in memory. -/
def driver : Driver Memory where
  answer := answer

end Memory

end AccessTokens.Storage
