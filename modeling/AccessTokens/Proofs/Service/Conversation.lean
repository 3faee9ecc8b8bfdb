import AccessTokens.Proofs.Service.Requests
import AccessTokens.Service.World

/-!
# Conversations

What a program asks on its way to its end, and what it is told, is its conversation: a list of exchanges,
first one first. `Program.Follows` says which conversations a program can have and what it then ends
with, whoever replies. The replies may come from a store that others work on as well, so this covers
every way in which the requests of one operation may lie among those of others. `World.conversation` is
the one that a program has with a world of its own.

Programs that are put together have conversations that are put together (`Program.Follows.of_bind`,
`World.runFrom_bind`, `World.conversation_bind`). What a run leaves can be read off its conversation
(`World.gathered_runFrom`): the touches it handed over are those that it asked for
(`World.pending_runFrom`).
-/

namespace AccessTokens

open Time (Instant)

/-- A request and the reply that it got. -/
structure Exchange where
  request : Request
  reply : request.Reply

namespace Exchange

/-- The call that was made, if the store was asked. The answer is left out: which calls are made is what
matters for the store. -/
def call? : Exchange → Option Storage.Call
  | ⟨.store c, _⟩ => some c
  | _ => none

/-- The id of the record of which a touch was handed over, if one was. -/
def handedOver? : Exchange → Option Int64
  | ⟨.touchLater id, _⟩ => some id
  | _ => none

end Exchange

namespace Program

variable {α β : Type}

/-- A program may end with `a` after the exchanges of a list. Nothing is said of who replied, so the
replies need not come from one world. -/
inductive Follows : Program α → List Exchange → α → Prop
  | done (a : α) : Follows (.done a) [] a
  | ask {q : Request} {next : q.Reply → Program α} {r : q.Reply} {xs : List Exchange} {a : α}
    (h : Follows (next r) xs a) : Follows (.ask q next) (⟨q, r⟩ :: xs) a

theorem Follows.of_done {a b : α} {xs : List Exchange} (h : (Program.done a).Follows xs b) :
    xs = [] ∧ b = a := by
  cases h
  exact ⟨rfl, rfl⟩

theorem Follows.of_ask {q : Request} {next : q.Reply → Program α} {xs : List Exchange} {a : α}
    (h : (Program.ask q next).Follows xs a) :
    ∃ r ys, xs = ⟨q, r⟩ :: ys ∧ (next r).Follows ys a := by
  cases h with
  | ask h => exact ⟨_, _, rfl, h⟩

/-- A program that asks for one thing more has one exchange. -/
theorem Follows.of_last {q : Request} {f : q.Reply → α} {xs : List Exchange} {a : α}
    (h : (Program.ask q fun r => .done (f r)).Follows xs a) : ∃ r, xs = [⟨q, r⟩] ∧ a = f r := by
  obtain ⟨r, ys, rfl, hdone⟩ := h.of_ask
  obtain ⟨rfl, ha⟩ := hdone.of_done
  exact ⟨r, rfl, ha⟩

/-- A conversation of two programs, one after the other, is one of the first and one of the second. The
second program may depend on what the first one ended with. -/
theorem Follows.of_bind {p : Program α} {f : α → Program β} {xs : List Exchange} {b : β}
    (h : (p >>= f).Follows xs b) :
    ∃ ys a zs, xs = ys ++ zs ∧ p.Follows ys a ∧ (f a).Follows zs b := by
  -- along the first program: its exchanges are put aside one by one until it is done
  induction p generalizing xs with
  | done a => exact ⟨[], a, xs, rfl, .done a, h⟩
  | ask q next ih =>
    rw [ask_bind] at h
    obtain ⟨r, rest, rfl, hrest⟩ := h.of_ask
    obtain ⟨ys, a, zs, rfl, hp, hf⟩ := ih r hrest
    exact ⟨⟨q, r⟩ :: ys, a, zs, rfl, .ask hp, hf⟩

end Program

namespace World

variable {σ α β : Type}

/-- The exchanges of a run, whose first request has the number `n`. They are those of `runFrom`, request
by request. -/
def conversation (driver : Storage.Driver σ) (o : Occasion) :
    Nat → Program α → World σ → List Exchange
  | _, .done _, _ => []
  | n, .ask q next, w =>
    let (r, w') := w.reply driver o n q
    ⟨q, r⟩ :: conversation driver o (n + 1) (next r) w'

variable (driver : Storage.Driver σ) (o : Occasion)

theorem runFrom_ask (n : Nat) (q : Request) (next : q.Reply → Program α) (w : World σ) :
    w.runFrom driver o n (.ask q next) = (w.reply driver o n q).2.runFrom driver o (n + 1)
      (next (w.reply driver o n q).1) := rfl

theorem conversation_ask (n : Nat) (q : Request) (next : q.Reply → Program α) (w : World σ) :
    w.conversation driver o n (.ask q next) = ⟨q, (w.reply driver o n q).1⟩ ::
      (w.reply driver o n q).2.conversation driver o (n + 1) (next (w.reply driver o n q).1) := rfl

theorem follows_conversation (n : Nat) (p : Program α) (w : World σ) :
    p.Follows (w.conversation driver o n p) (w.runFrom driver o n p).1 := by
  induction p generalizing n w with
  | done a => exact .done a
  | ask q next ih => exact .ask (ih _ _ _)

/-- A run of two programs, one after the other, goes on where the first one ended, and counts its
requests on. -/
theorem runFrom_bind (n : Nat) (p : Program α) (f : α → Program β) (w : World σ) :
    w.runFrom driver o n (p >>= f) =
      (w.runFrom driver o n p).2.runFrom driver o (n + (w.conversation driver o n p).length)
        (f (w.runFrom driver o n p).1) := by
  induction p generalizing n w with
  | done a => rfl
  | ask q next ih =>
    -- this request counts as one of the first program, and so moves the second one on
    rw [Program.ask_bind, runFrom_ask, ih, runFrom_ask, conversation_ask, List.length_cons,
      Nat.add_assoc n 1, Nat.add_comm 1]

theorem conversation_bind (n : Nat) (p : Program α) (f : α → Program β) (w : World σ) :
    w.conversation driver o n (p >>= f) =
      w.conversation driver o n p ++
        (w.runFrom driver o n p).2.conversation driver o
          (n + (w.conversation driver o n p).length) (f (w.runFrom driver o n p).1) := by
  induction p generalizing n w with
  | done a => rfl
  | ask q next ih =>
    rw [Program.ask_bind, conversation_ask, ih, conversation_ask, runFrom_ask, List.length_cons,
      List.cons_append, Nat.add_assoc n 1, Nat.add_comm 1]

/-- What each request adds to a part of the world, as its exchange tells, a run adds as its conversation
tells. -/
theorem gathered_runFrom (view : World σ → List β) (tells : Exchange → Option β)
    (h : ∀ (n : Nat) (q : Request) (w : World σ), view (w.reply driver o n q).2 =
      view w ++ (tells ⟨q, (w.reply driver o n q).1⟩).toList)
    (n : Nat) (p : Program α) (w : World σ) :
    view (w.runFrom driver o n p).2 = view w ++ (w.conversation driver o n p).filterMap tells := by
  -- along the program, with any world to begin in: what the first exchange adds comes before the rest
  induction p generalizing n w with
  | done a => exact (List.append_nil _).symm
  | ask q next ih =>
    rw [runFrom_ask, ih, h, conversation_ask, List.append_assoc]
    -- the first exchange told of something or it did not
    cases hfirst : tells ⟨q, (w.reply driver o n q).1⟩ with
    | none => rw [List.filterMap_cons_none hfirst]; rfl
    | some b => rw [List.filterMap_cons_some hfirst]; rfl

theorem pending_reply (n : Nat) (q : Request) (w : World σ) :
    (w.reply driver o n q).2.pending =
      w.pending ++ (Exchange.handedOver? ⟨q, (w.reply driver o n q).1⟩).toList := by
  cases q with
  | touchLater id => rfl
  | _ => exact (List.append_nil _).symm

/-- The touches that are pending after a run are those that were, and those that it handed over. They keep
the order in which they were handed over, and none is made by the run itself. -/
theorem pending_runFrom (n : Nat) (p : Program α) (w : World σ) :
    (w.runFrom driver o n p).2.pending =
      w.pending ++ (w.conversation driver o n p).filterMap Exchange.handedOver? :=
  gathered_runFrom driver o World.pending Exchange.handedOver? (pending_reply driver o) n p w

end World

end AccessTokens
