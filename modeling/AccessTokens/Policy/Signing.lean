import AccessTokens.Text.UpperCase

/-!
# Signing methods and keys

A policy names a signing method and may hold key material for it: one secret text for HS256, a pair of
PEM texts for RS256. A method is read from its name in letters of any case.
-/

namespace AccessTokens

/-- The methods by which tokens may be signed. -/
inductive SigningMethod
  | hs256
  | rs256
  deriving DecidableEq

/-- The key material of a signing method. -/
inductive SigningKey
  | hmac (secret : String)
  | rsa (privatePem publicPem : String)
  deriving DecidableEq

/-- The name of a method. -/
def SigningMethod.name : SigningMethod → String
  | .hs256 => "HS256"
  | .rs256 => "RS256"

/-- The method that has a text as its name, in letters of any case. -/
def SigningMethod.ofName? (text : String) : Option SigningMethod :=
  let upper := Text.upperCaseText text.toList
  if upper = SigningMethod.hs256.name.toList then some .hs256
  else if upper = SigningMethod.rs256.name.toList then some .rs256
  else none

/-- What a log may show of a key: its kind, and nothing of its material. -/
def SigningKey.redacted : SigningKey → String
  | .hmac _ => "SigningKey::Hmac([redacted])"
  | .rsa _ _ => "SigningKey::Rsa([redacted])"

end AccessTokens
