import AccessTokens.Service.Error
import AccessTokens.Storage.Driver

/-!
# Programs of the service

An operation of the service is a program: it asks for one thing after another, and what it asks next
depends on the replies (`Program`). It asks the store, the clock and the source of random bytes, hands
over touches to be made later, emits warnings, and asks whether a signal of cancellation was given
(`Request`).

Keeping what is asked apart from who replies lets one operation be run on any store, at any readings of
the clock, whole or one request at a time between the requests of others.
-/

namespace AccessTokens

open Time (Instant)

/-- A signal that may be given once, and that cancels the clients that observe it. -/
abbrev Signal := Nat

/-- What a program asks for. -/
inductive Request
  | store (c : Storage.Call)
  | clock
  | randomBytes (count : Nat)
  /-- Hands over a touch of a record, to be made at some later time or never. -/
  | touchLater (id : Int64)
  | warn (w : Warning)
  | isCancelled (s : Signal)

/-- What the source of random bytes comes to: as many bytes as were asked for, or the words in which it
says why there are none. -/
abbrev Drawn (count : Nat) : Type := Except String (Vector UInt8 count)

/-- The type of the replies to a request. -/
abbrev Request.Reply : Request → Type
  | .store c => c.Answer
  | .clock => Instant
  | .randomBytes count => Drawn count
  | .touchLater _ | .warn _ => Unit
  | .isCancelled _ => Bool

/-- A program that ends with a value of type `α`. -/
inductive Program (α : Type) : Type
  | done (a : α)
  | ask (q : Request) (next : q.Reply → Program α)

namespace Program

variable {α β γ : Type}

/-- Goes on with another program where one ends. -/
def bind : Program α → (α → Program β) → Program β
  | .done a, f => f a
  | .ask q next, f => .ask q fun r => (next r).bind f

instance : Monad Program where
  pure := .done
  bind := bind

@[simp] theorem ask_bind (q : Request) (next : q.Reply → Program α) (f : α → Program β) :
    (Program.ask q next >>= f) = .ask q fun r => next r >>= f := rfl

theorem bind_done (p : Program α) : (p >>= Program.done) = p := by
  induction p with
  | done a => rfl
  | ask q next ih => rw [ask_bind]; exact congrArg _ (funext ih)

theorem bind_assoc (p : Program α) (f : α → Program β) (g : β → Program γ) :
    (p >>= f >>= g) = p >>= fun a => f a >>= g := by
  induction p with
  | done a => rfl
  | ask q next ih => simp only [ask_bind]; exact congrArg _ (funext ih)

instance : LawfulMonad Program :=
  LawfulMonad.mk' Program bind_done (fun _ _ => rfl) bind_assoc

/-! ### Requests -/

/-- Asks the store. -/
def store (c : Storage.Call) : Program c.Answer := .ask (.store c) .done

/-- Reads the clock. -/
def clock : Program Instant := .ask .clock .done

/-- Draws random bytes. -/
def randomBytes (count : Nat) : Program (Drawn count) := .ask (.randomBytes count) .done

/-- Hands over a touch. -/
def touchLater (id : Int64) : Program Unit := .ask (.touchLater id) .done

/-- Emits a warning. -/
def warn (w : Warning) : Program Unit := .ask (.warn w) .done

/-- Asks whether a signal was given. -/
def isCancelled (s : Signal) : Program Bool := .ask (.isCancelled s) .done

end Program

/-- A program that may refuse. -/
abbrev Action (α : Type) : Type := ExceptT ServiceError Program α

/-- What has been found out without asking. -/
def Action.ofExcept {α : Type} (e : Except ServiceError α) : Action α := ExceptT.mk (pure e)

/-- What the store answers, with its errors as the service takes them. -/
def Action.ofStore {α : Type} (p : Program (Except StorageError α)) : Action α :=
  ExceptT.mk do return (← p).mapError ServiceError.ofStorage

/-- What was drawn. There is no other source to turn to when this one fails. -/
def Action.ofSource {α : Type} (p : Program (Except String α)) : Action α :=
  ExceptT.mk do return (← p).mapError ServiceError.randomSource

end AccessTokens
