import AccessTokens.Service.Client

/-!
# Building clients

A client is built from a list of steps, each of which sets something; the last one to set a thing
decides. A signing method and its key are always set together. Building checks the policy that the steps
have left, and fails with the first thing that is wrong with it. A client that was given no store gets one
of its own in memory, and one that was given no signal to observe a signal of its own.
-/

namespace AccessTokens

open Time (Instant Duration)

/-- Where a built client keeps its records. -/
inductive StoreChoice
  /-- In the store that was handed to the builder. -/
  | given
  /-- In a new store in memory. -/
  | ownMemory
  deriving DecidableEq

/-- What has been set so far. -/
structure Builder where
  policy : Policy := {}
  store : Option StoreChoice := none
  signal : Option Signal := none

namespace Builder

/-- A step that sets something. -/
inductive Step
  | policy (p : Policy)
  | signingKey (secret : String)
  | rsaKeys (privatePem publicPem : String)
  | tokenLength (length : Nat)
  | tokenPrefix (text : String)
  | expiration (lifetime : Duration)
  | abilityDelimiter (text : String)
  | store
  | memoryStore
  | cancellation (signal : Signal)
  deriving DecidableEq

/-- The policy after a step. -/
def Step.setPolicy (p : Policy) : Step → Policy
  | .policy p' => p'
  | .signingKey secret =>
    { p with signingMethod := .hs256, signingKey := some (.hmac secret) }
  | .rsaKeys privatePem publicPem =>
    { p with signingMethod := .rs256, signingKey := some (.rsa privatePem publicPem) }
  | .tokenLength length => { p with tokenLength := length }
  | .tokenPrefix text => { p with tokenPrefix := text }
  | .expiration lifetime => { p with expireAfter := lifetime }
  | .abilityDelimiter text => { p with abilityDelimiter := text }
  | .store | .memoryStore | .cancellation _ => p

/-- The choice of a store after a step. -/
def Step.setStore (choice : Option StoreChoice) : Step → Option StoreChoice
  | .store => some .given
  | .memoryStore => some .ownMemory
  | _ => choice

/-- The signal to observe after a step. -/
def Step.setSignal (signal : Option Signal) : Step → Option Signal
  | .cancellation signal' => some signal'
  | _ => signal

/-- Makes a step. -/
def apply (b : Builder) (s : Step) : Builder where
  policy := s.setPolicy b.policy
  store := s.setStore b.store
  signal := s.setSignal b.signal

/-- The builder that has made the steps of a list. -/
def ofSteps (steps : List Step) : Builder := steps.foldl apply {}

/-- The store of the client that is built. -/
def storeChoice (b : Builder) : StoreChoice := b.store.getD .ownMemory

/-- The client of what has been set. Where no signal was set, it observes the one that is given here. -/
def build (b : Builder) (now : Instant) (signal : Signal) : Except ServiceError Client := do
  (b.policy.check now).mapError .invalidPolicy
  return { service := { policy := b.policy }, signal := b.signal.getD signal }

end Builder

end AccessTokens
