import AccessTokens.Service.Client

/-!
# Running programs

A world is what the programs of a service work on: a store, the touches that have been handed over and
not been made yet, the events that have been logged, and the signals that have been given. An occasion
supplies what is not of the world: the readings of the clock and what the source of random bytes comes to.

A program runs from one request to the next until it is done (`World.run`). Every request happens at its
own reading of the clock. A touch is made at any time after it was handed over, in any order
(`World.touch`), and its answer is of no consequence.
-/

namespace AccessTokens

open Time (Instant)

/-- What is logged. -/
inductive Event
  | warning (w : Warning)
  /-- A store failed to keep a record. -/
  | storeFailed
  deriving DecidableEq

/-- The readings of the clock, and what the source of random bytes comes to, at each of the requests of a
run. -/
structure Occasion where
  clock : Nat → Instant
  random : Nat → (count : Nat) → Drawn count

/-- What programs work on. -/
structure World (σ : Type) where
  store : σ
  /-- The ids of the records to be touched, in the order in which they were handed over. -/
  pending : List Int64 := []
  /-- What has been logged, in order. -/
  events : List Event := []
  /-- The signals that have been given. -/
  cancelled : List Signal := []

namespace World

variable {σ α : Type}

/-- Asks the store, and logs a failure of its own. -/
def call (driver : Storage.Driver σ) (now : Instant) (c : Storage.Call) (w : World σ) :
    c.Answer × World σ :=
  let (answer, store) := driver.answer c now w.store
  (answer, { w with
    store := store
    events := if driver.logsFailure c answer store then w.events ++ [.storeFailed] else w.events })

/-- The reply to the request with some number in a run, and the world that it leaves. -/
def reply (driver : Storage.Driver σ) (o : Occasion) (n : Nat) :
    (q : Request) → World σ → q.Reply × World σ
  | .store c, w => w.call driver (o.clock n) c
  | .clock, w => (o.clock n, w)
  | .randomBytes count, w => (o.random n count, w)
  | .touchLater id, w => ((), { w with pending := w.pending ++ [id] })
  | .warn warning, w => ((), { w with events := w.events ++ [.warning warning] })
  | .isCancelled s, w => (w.cancelled.contains s, w)

/-- Runs a program to its end, its first request having the number `n`. -/
def runFrom (driver : Storage.Driver σ) (o : Occasion) : Nat → Program α → World σ → α × World σ
  | _, .done a, w => (a, w)
  | n, .ask q next, w =>
    let (r, w') := w.reply driver o n q
    runFrom driver o (n + 1) (next r) w'

/-- Runs a program to its end. -/
def run (driver : Storage.Driver σ) (o : Occasion) (p : Program α) (w : World σ) : α × World σ :=
  runFrom driver o 0 p w

/-- Makes the pending touch with some number in the list. -/
def touch (driver : Storage.Driver σ) (now : Instant) (n : Nat) (w : World σ) : World σ :=
  match w.pending[n]? with
  | none => w
  | some id => (call driver now (.touch id) { w with pending := w.pending.eraseIdx n }).2

/-- Makes all pending touches in order. -/
def settle (driver : Storage.Driver σ) (clock : Nat → Instant) (w : World σ) : World σ :=
  (List.range w.pending.length).foldl (fun w n => w.touch driver (clock n) 0) w

/-- Gives a signal. -/
def cancel (s : Signal) (w : World σ) : World σ := { w with cancelled := s :: w.cancelled }

end World

end AccessTokens
