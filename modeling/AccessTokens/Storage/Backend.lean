import AccessTokens.Storage.Database
import AccessTokens.Storage.Memory
import AccessTokens.Storage.Scripted

/-!
# The stores there are

A backend is a store of any of the three kinds with its state. It has a driver of its own, which answers
as the driver of that kind.
-/

namespace AccessTokens.Storage

/-- A store of any kind. -/
inductive Backend
  | memory (m : Memory)
  | database (d : Database)
  | scripted (s : Scripted)

namespace Backend

/-- The answer of a driver, with its state put back into a backend. -/
def lift {σ : Type} (wrap : σ → Backend) (driver : Driver σ) (c : Call) (now : Time.Instant)
    (s : σ) : c.Answer × Backend :=
  ((driver.answer c now s).1, wrap (driver.answer c now s).2)

/-- The driver of a backend. -/
def driver : Driver Backend where
  answer c now b :=
    match b with
    | .memory m => lift .memory Memory.driver c now m
    | .database d => lift .database Database.driver c now d
    | .scripted s => lift .scripted Scripted.driver c now s
  logsFailure c a b :=
    match b with
    | .memory m => Memory.driver.logsFailure c a m
    | .database d => Database.driver.logsFailure c a d
    | .scripted s => Scripted.driver.logsFailure c a s

end Backend

end AccessTokens.Storage
