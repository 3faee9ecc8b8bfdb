import AccessTokens.Policy.Basic
import AccessTokens.Text.Blank
import AccessTokens.Text.Decimal

/-!
# Policies from environment variables

Settings of a policy are taken from named variables. A variable that is not set leaves its setting as it
is; one that is set to a text that does not read as a value is an error, and then the variables after it
are not looked at. The settings of the variables before it stay changed (`Policy.overlay`).

Last, the key material is taken from the variables of the method that is then in force: one variable for
HS256, a pair for RS256. Of a pair it is enough that one is set; the text of the other one is then
empty.
-/

namespace AccessTokens

/-- The value of each variable that is set. -/
abbrev Variables := String → Option String

namespace Variables

/-! ### Names -/

/-- Holds the number of random bytes. -/
def tokenLength : String := "TOKENKEEP_TOKEN_LENGTH"

/-- Holds what is put before the digits of a secret. -/
def tokenPrefix : String := "TOKENKEEP_TOKEN_PREFIX"

/-- Holds the lifetime in whole seconds. -/
def expireSeconds : String := "TOKENKEEP_EXPIRE_SECS"

/-- Holds what divides the segments of an ability. -/
def abilityDelimiter : String := "TOKENKEEP_ABILITY_DELIMITER"

/-- Holds the name of the signing method. -/
def signingMethod : String := "TOKENKEEP_SIGNING_METHOD"

/-- Holds the secret of HS256. -/
def signingKey : String := "TOKENKEEP_SIGNING_KEY"

/-- Holds the private text of the pair of RS256. -/
def rsaPrivateKey : String := "TOKENKEEP_RSA_PRIVATE_KEY"

/-- Holds the public text of the pair of RS256. -/
def rsaPublicKey : String := "TOKENKEEP_RSA_PUBLIC_KEY"

/-- Holds the location of the store. -/
def databaseUrl : String := "TOKENKEEP_DATABASE_URL"

/-- Every name that is looked up. -/
def names : List String :=
  [tokenLength, tokenPrefix, expireSeconds, abilityDelimiter, signingMethod, signingKey,
    rsaPrivateKey, rsaPublicKey, databaseUrl]

end Variables

/-- A variable and what its text changes in a policy. -/
structure Setting where
  name : String
  apply : String → Policy → Except PolicyError Policy

namespace Setting

/-- Reads the text of a variable as a number, with blanks around it. -/
def readNumber (name text : String) : Except PolicyError Nat :=
  match Decimal.unsigned64? (Text.trim text.toList) with
  | some n => .ok n
  | none => .error (.invalidVariable name text)

/-- Reads a text as the name of a signing method, as it stands. -/
def readMethod (text : String) : Except PolicyError SigningMethod :=
  match SigningMethod.ofName? text with
  | some method => .ok method
  | none => .error (.unsupportedSigningMethod text)

/-- The variables of a policy in the order in which they are looked at. -/
def all : List Setting :=
  [⟨Variables.tokenLength, fun text p => do
      return { p with tokenLength := ← readNumber Variables.tokenLength text }⟩,
    ⟨Variables.tokenPrefix, fun text p => .ok { p with tokenPrefix := text }⟩,
    ⟨Variables.expireSeconds, fun text p => do
      return { p with expireAfter := .ofSeconds (← readNumber Variables.expireSeconds text) }⟩,
    ⟨Variables.abilityDelimiter, fun text p => .ok { p with abilityDelimiter := text }⟩,
    ⟨Variables.signingMethod, fun text p => do
      return { p with signingMethod := ← readMethod text }⟩]

/-- A policy with the value of one variable, if it is set. -/
def overlay (s : Setting) (env : Variables) (p : Policy) : Except PolicyError Policy :=
  match env s.name with
  | none => .ok p
  | some text => s.apply text p

/-- Lays one setting after the other over a policy, up to the first error. Tells the policy that is left
and the error. -/
def overlayEach (env : Variables) : List Setting → Policy → Policy × Option PolicyError
  | [], p => (p, none)
  | s :: rest, p =>
    match s.overlay env p with
    | .ok p' => overlayEach env rest p'
    | .error e => (p, some e)

end Setting

namespace Policy

/-- A policy with the key material of the variables of its method. -/
def overlayKey (env : Variables) (p : Policy) : Policy :=
  match p.signingMethod with
  | .hs256 =>
    match env Variables.signingKey with
    | none => p
    | some secret => { p with signingKey := some (.hmac secret) }
  | .rs256 =>
    match env Variables.rsaPrivateKey, env Variables.rsaPublicKey with
    | none, none => p
    | privatePem, publicPem =>
      { p with signingKey := some (.rsa (privatePem.getD "") (publicPem.getD "")) }

/-- Lays the variables that are set over a policy. Tells the policy that is left and the error, if there
is one. -/
def overlay (env : Variables) (p : Policy) : Policy × Option PolicyError :=
  match Setting.overlayEach env Setting.all p with
  | (p', none) => (p'.overlayKey env, none)
  | (p', some e) => (p', some e)

end Policy

end AccessTokens
