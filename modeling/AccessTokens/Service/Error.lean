import AccessTokens.PlainToken
import AccessTokens.Policy.Error
import AccessTokens.Service.Options
import AccessTokens.Storage.Error
import AccessTokens.Time.Timestamp

/-!
# What can go wrong in the service

Every failure of the service has exactly one cause. A store that does not know a record, or knows it to
be expired, tells something of the token; any other error of a store is passed on as one.

Warnings tell an operator why a presented token was refused. They name ids, never a secret or a digest.
-/

namespace AccessTokens

open Time (Instant)

/-- Why the service refused. -/
inductive ServiceError
  | invalidPolicy (cause : PolicyError)
  | invalidOptions (cause : OptionsError)
  | invalidFormat
  | tokenNotFound
  | tokenExpired
  /-- The store came back with the record of another token. -/
  | tokenInvalid
  | noStore
  | storage (cause : StorageError)
  /-- There were no random bytes for a secret. -/
  | randomSource (cause : String)
  | cancelled
  deriving DecidableEq

namespace ServiceError

/-- The wording of an error, unless it is worded elsewhere. -/
def message? : ServiceError → Option String
  | .invalidPolicy cause => some ("Invalid configuration: " ++ cause.message)
  | .invalidOptions cause => some ("Invalid token options: " ++ cause.message)
  | .invalidFormat => some "Invalid token format"
  | .tokenNotFound => some "Token not found"
  | .tokenExpired => some "Token expired"
  | .tokenInvalid => some "Token is invalid"
  | .noStore => some "Storage driver cannot be nil"
  | .storage cause => cause.message?.map ("Storage error: " ++ ·)
  | .randomSource cause => some ("Secure random source failed: " ++ cause)
  | .cancelled => some "Operation cancelled"

/-- What an error of the store means to the service. -/
def ofStorage : StorageError → ServiceError
  | .notFound => .tokenNotFound
  | .expired => .tokenExpired
  | e => .storage e

end ServiceError

/-- Why a presented token was refused. -/
inductive Warning
  /-- A presented text is no token. -/
  | malformed (cause : PartCountError)
  /-- The store does not know a token that was presented with an id. -/
  | unknown (id : String)
  /-- The store takes a token that was presented with an id to be expired. -/
  | expired (id : String)
  /-- The store came back with a record that has another digest. -/
  | otherDigest (id : Int64)
  /-- A record that the store came back with is expired. -/
  | expiredAt (id : Int64) (expiry : Instant)
  deriving DecidableEq

/-- The wording of a warning. -/
def Warning.text : Warning → String
  | .malformed cause => "Rejecting malformed token: " ++ cause.message
  | .unknown id => "Rejecting token presented with id " ++ id ++ ": Token not found"
  | .expired id => "Rejecting token presented with id " ++ id ++ ": Token expired"
  | .otherDigest id => "Storage returned token " ++ Decimal.text id ++ " for a different digest"
  | .expiredAt id expiry =>
    "Rejecting token " ++ Decimal.text id ++ ": expired at Some(" ++ expiry.zulu ++ ")"

end AccessTokens
