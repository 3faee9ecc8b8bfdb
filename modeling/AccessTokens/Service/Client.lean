import AccessTokens.Service.Tokens

/-!
# Clients

A client offers the operations of a service as long as the signal it observes has not been given. The
signal is asked for before anything else, so that a cancelled client draws no bytes, asks no store and
warns of nothing. A client for another signal shares everything else (`Client.observing`).
-/

namespace AccessTokens

/-- A service behind a signal of cancellation. -/
structure Client where
  service : Service
  signal : Signal

namespace Client

/-- The same client, observing another signal. -/
def observing (c : Client) (signal : Signal) : Client := { c with signal := signal }

/-- Does something unless the client is cancelled. -/
def unlessCancelled {α : Type} (c : Client) (a : Action α) : Action α := do
  if ← Program.isCancelled c.signal then
    throw .cancelled
  else
    a

/-- Issues a token. -/
def issue (c : Client) (o : IssueOptions) : Action IssuedToken :=
  c.unlessCancelled (c.service.issue o)

/-- Checks a presented token and hands over a touch of its record. -/
def validate (c : Client) (raw : String) : Action Record :=
  c.unlessCancelled (c.service.validate raw)

/-- Checks a presented token without marking it as used. -/
def inspect (c : Client) (raw : String) : Action Record :=
  c.unlessCancelled (c.service.inspect raw)

/-- Checks a presented token and removes its record. -/
def revoke (c : Client) (raw : String) : Action Unit :=
  c.unlessCancelled (c.service.revoke raw)

end Client

end AccessTokens
