import AccessTokens.Policy.Signing

/-!
# What can be wrong with a policy

Each way in which a policy, or a setting it is read from, can be wrong, and the wording of each.
-/

namespace AccessTokens

/-- What is wrong with a policy or with one of its settings. -/
inductive PolicyError
  | unsupportedSigningMethod (text : String)
  | missingHmacKey
  | missingRsaKeyPair
  | signingKeyMismatch (method : SigningMethod)
  | tokenLengthTooShort (actual least : Nat)
  | invalidTokenPrefix (text : String)
  | invalidAbilityDelimiter (text : String)
  | expirationOutOfRange
  | invalidVariable (name value : String)
  deriving DecidableEq

/-- The wording of an error. -/
def PolicyError.message : PolicyError → String
  | .unsupportedSigningMethod text => "Unsupported signing method: " ++ text
  | .missingHmacKey => "Missing HMAC signing key"
  | .missingRsaKeyPair => "Missing RSA key pair"
  | .signingKeyMismatch method => "Signing key does not match signing method " ++ method.name
  | .tokenLengthTooShort actual least =>
    s!"Token length too short: {actual} bytes (minimum {least})"
  | .invalidTokenPrefix text => s!"Invalid token prefix '{text}': must not contain '|'"
  | .invalidAbilityDelimiter text =>
    s!"Invalid ability delimiter '{text}': must be non-empty and must not contain ','"
  | .expirationOutOfRange => "Token expiration is out of range"
  | .invalidVariable name value => s!"Invalid value '{value}' for environment variable {name}"

end AccessTokens
