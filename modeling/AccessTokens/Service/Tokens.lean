import AccessTokens.Policy.Basic
import AccessTokens.Secret
import AccessTokens.Service.Program

/-!
# Issuing and checking tokens

A service issues tokens by its policy, and checks, validates and revokes the tokens that are presented
to it. Its store is asked for records by the digest of a secret only; the id in a presented token is
never trusted.

A presented token passes (`Service.inspect`) when it has two parts, the store has a record for the digest
of its secret, that record really has this digest, and it is not expired. The store's word is not taken
for the last two. Validating a token also hands over a touch of its record, and revoking one removes its
record by the digest that was checked.
-/

namespace AccessTokens

/-- A policy, and whether there is a store. -/
structure Service where
  policy : Policy := {}
  connected : Bool := true

/-- A token as it is handed to its holder, and the record that was kept of it. -/
structure IssuedToken where
  plainText : String
  record : Record
  deriving DecidableEq

namespace Service

open Program

/-- Refuses when there is no store. -/
def requireStore (s : Service) : Action Unit :=
  if s.connected then pure () else throw .noStore

/-- The secret of some random bytes. -/
def secretOf (s : Service) (bytes : List UInt8) : String :=
  Secret.compose s.policy.tokenPrefix (String.ofList (Hex.ofBytes bytes))

/-- Issues a token: checks what it is for, draws a secret, and keeps a record of its digest. No token is
issued when the random bytes cannot be drawn. -/
def issue (s : Service) (o : IssueOptions) : Action IssuedToken := do
  s.requireStore
  Action.ofExcept (o.check.mapError .invalidOptions)
  let bytes ← Action.ofSource (randomBytes s.policy.tokenLength)
  let secret := s.secretOf bytes.toList
  let now ← clock
  let expiry ← Action.ofExcept ((s.policy.expiryFrom now).mapError .invalidPolicy)
  let record := Record.fresh o.userId (Secret.digest secret) o.name o.abilities now expiry
  let stored ← Action.ofStore (store (.store record))
  return ⟨PlainToken.format stored.id secret, stored⟩

/-- Emits a warning and refuses. -/
def refuse {α : Type} (w : Warning) (e : ServiceError) : Action α := do
  warn w
  throw e

/-- The record that the store has for a secret. -/
def recordOf (id secret : String) : Action Record := do
  match ← store (.findByDigest (Secret.digest secret)) with
  | .ok record => return record
  | .error .notFound => refuse (.unknown id) .tokenNotFound
  | .error .expired => refuse (.expired id) .tokenExpired
  | .error e => throw (.storage e)

/-- Checks a record against the digest it was asked for and against the clock. -/
def checkRecord (digest : String) (record : Record) : Action Record := do
  if record.digest ≠ digest then
    refuse (.otherDigest record.id) .tokenInvalid
  let now ← clock
  match record.expiresAt with
  | some expiry =>
    if expiry < now then
      refuse (.expiredAt record.id expiry) .tokenExpired
    else
      return record
  | none => return record

/-- Checks a presented token without marking it as used. -/
def inspect (s : Service) (raw : String) : Action Record := do
  s.requireStore
  match PlainToken.parse raw with
  | .error e => refuse (.malformed e) .invalidFormat
  | .ok token =>
    let record ← recordOf token.id token.secret
    checkRecord (Secret.digest token.secret) record

/-- Checks a presented token and hands over a touch of its record. -/
def validate (s : Service) (raw : String) : Action Record := do
  let record ← s.inspect raw
  -- The answer is the record as it was found, from before the touch.
  touchLater record.id
  return record

/-- Checks a presented token and removes its record. -/
def revoke (s : Service) (raw : String) : Action Unit := do
  let record ← s.inspect raw
  Action.ofStore (store (.revoke record.digest))

end Service

end AccessTokens
