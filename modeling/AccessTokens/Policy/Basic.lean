import AccessTokens.Ability
import AccessTokens.PlainToken
import AccessTokens.Policy.Error
import AccessTokens.Time.Instant

/-!
# Policies

A policy says how tokens are issued: how many random bytes a secret has and what is put before them, how
long a token lives, which character text divides the segments of an ability, and how tokens may be
signed.

`Policy.check` tells the first thing that is wrong with a policy, in a fixed order: the key material,
the length, the prefix, the delimiter, the lifetime. A policy that passes can issue tokens that are read
back: its prefix holds no separator of tokens and its delimiter no separator of lists.
-/

namespace AccessTokens

open Time (Instant Duration)

/-- How tokens are issued. -/
structure Policy where
  /-- The number of random bytes in a secret. -/
  tokenLength : Nat := 32
  /-- What is put before the digits of every secret. -/
  tokenPrefix : String := ""
  /-- The lifetime of a token; a lifetime of zero never ends. -/
  expireAfter : Duration := .ofSeconds 86400
  signingMethod : SigningMethod := .hs256
  signingKey : Option SigningKey := none
  /-- What divides the segments of an ability. -/
  abilityDelimiter : String := ":"
  deriving DecidableEq

namespace Policy

/-- The fewest random bytes that a secret may have. -/
def leastTokenLength : Nat := 16

/-- A lifetime of zero never ends. -/
def isUnlimited (p : Policy) : Bool := p.expireAfter.toNanos = 0

/-- The longest span that is added to an instant has 2⁶³ - 1 milliseconds. -/
def longestSpan : Nat := 9223372036854775807 * 1000000

/-- When a token that is issued now expires: never, at an instant, or beyond the calendar. -/
def expiryFrom (p : Policy) (now : Instant) : Except PolicyError (Option Instant) :=
  if p.isUnlimited then .ok none
  else if p.expireAfter.toNanos ≤ longestSpan then
    match now.add? p.expireAfter with
    | some expiry => .ok (some expiry)
    | none => .error .expirationOutOfRange
  else .error .expirationOutOfRange

/-- Key material is needed for RS256 only; where there is some, it has to be of the method's kind and
may not be empty. -/
def checkSigning (p : Policy) : Except PolicyError Unit :=
  match p.signingMethod, p.signingKey with
  | .hs256, none => .ok ()
  | .hs256, some (.hmac secret) => if secret.isEmpty then .error .missingHmacKey else .ok ()
  | .rs256, none => .error .missingRsaKeyPair
  | .rs256, some (.rsa privatePem publicPem) =>
    if privatePem.isEmpty || publicPem.isEmpty then .error .missingRsaKeyPair else .ok ()
  | method, some _ => .error (.signingKeyMismatch method)

/-- Tells the first thing that is wrong with a policy. -/
def check (p : Policy) (now : Instant) : Except PolicyError Unit := do
  p.checkSigning
  if p.tokenLength < leastTokenLength then
    throw (.tokenLengthTooShort p.tokenLength leastTokenLength)
  if p.tokenPrefix.toList.contains tokenSeparator then
    throw (.invalidTokenPrefix p.tokenPrefix)
  if p.abilityDelimiter.isEmpty || p.abilityDelimiter.toList.contains Ability.listSeparator then
    throw (.invalidAbilityDelimiter p.abilityDelimiter)
  let _ ← p.expiryFrom now

end Policy

end AccessTokens
