import AccessTokens.Ability
import AccessTokens.Time.Instant

/-!
# Records of tokens

A store keeps one record for each token. The record holds the digest of the token's secret, never the
secret itself. An id of zero means that no store has given the record an id yet.

A record is expired once the clock is strictly after its `expiresAt`; at that very instant it is still
good.
-/

namespace AccessTokens

open Time (Instant)

/-- What is kept of a token. -/
@[ext] structure Record where
  id : Int64
  userId : Int64
  /-- The digest of the token's secret. -/
  digest : String
  name : Option String
  /-- The list of abilities as one text. -/
  abilities : String
  createdAt : Instant
  expiresAt : Option Instant
  lastUsedAt : Option Instant
  deriving DecidableEq

namespace Record

/-- A record that no store has seen yet. -/
def fresh (userId : Int64) (digest : String) (name : Option String) (abilities : List String)
    (createdAt : Instant) (expiresAt : Option Instant) : Record where
  id := 0
  userId := userId
  digest := digest
  name := name
  abilities := Ability.join abilities
  createdAt := createdAt
  expiresAt := expiresAt
  lastUsedAt := none

/-- A record is expired once the clock is after its expiry. -/
def isExpiredAt (r : Record) (now : Instant) : Bool :=
  match r.expiresAt with
  | none => false
  | some expiry => expiry < now

/-- The abilities of a record. -/
def abilityList (r : Record) : List String := Ability.list r.abilities

/-- A record grants a required ability when one of its abilities covers it. -/
def hasAbility (r : Record) (required delimiter : String) : Bool :=
  Ability.grants r.abilities delimiter required

theorem isExpiredAt_iff {r : Record} {now : Instant} :
    r.isExpiredAt now = true ↔ ∃ expiry, r.expiresAt = some expiry ∧ expiry < now := by
  unfold isExpiredAt
  split <;> simp_all

/-- A record that is not expired was not expired before. -/
theorem isExpiredAt_mono {r : Record} {t u : Instant} (htu : t ≤ u)
    (h : r.isExpiredAt t = true) : r.isExpiredAt u = true := by
  obtain ⟨e, he, hlt⟩ := isExpiredAt_iff.1 h
  exact isExpiredAt_iff.2 ⟨e, he, Instant.lt_of_lt_of_le hlt htu⟩

end Record

end AccessTokens
