import AccessTokens.Proofs.Service.Requests
import AccessTokens.Proofs.Storage.History
import AccessTokens.Service.World

/-!
# Sessions of clones

Clones of a client share a store and the touches that were handed over. A session runs any number of
their operations at once on one world. A move (`Move`) starts an operation under a name, lets the
operation of a name make its next request, makes a touch that is pending, or gives a signal; so the
requests of one operation may lie anywhere between those of others, and an operation that is never
moved on, or whose name is taken by another one, is given up where it stands. What the operations
came to is recorded in the order in which they ended (`Session.outcomes`).

What a session should hold in its store can be read off its outcomes (`Session.history`): a token that
was issued had its record stored, and a token that was revoked had the digest of its secret revoked.
That this is so rests on the form of the operations: none changes the store before its last request,
and the outcome tells the change that the last request made (`Operation.Tells`). `Program.Ends` says of
a program what it may come to after the change of its last request, as long as the store replies in good
order, and `Client.ends_perform` says of every operation that its outcome tells of that change.
-/

namespace AccessTokens

open Time (Instant)
open Storage (Change KeptSince)

/-! ### Operations -/

/-- What a client is asked for. -/
inductive Operation
  | issue (o : IssueOptions)
  | validate (raw : String)
  | inspect (raw : String)
  | revoke (raw : String)
  deriving DecidableEq

/-- The type of what an accepted operation gives. -/
abbrev Operation.Result : Operation → Type
  | .issue _ => IssuedToken
  | .validate _ | .inspect _ => Record
  | .revoke _ => Unit

/-- The program of an operation. -/
def Client.perform (c : Client) : (op : Operation) → Program (Except ServiceError op.Result)
  | .issue o => (c.issue o).run
  | .validate raw => (c.validate raw).run
  | .inspect raw => (c.inspect raw).run
  | .revoke raw => (c.revoke raw).run

/-- An operation under way, and what is left of its program. Once nothing is left of it, it becomes an
outcome. -/
structure Task where
  op : Operation
  rest : Program (Except ServiceError op.Result)

/-- An operation that has ended, with the name it went by and what came of it. -/
structure Outcome where
  name : Nat
  op : Operation
  result : Except ServiceError op.Result

/-! ### Sessions -/

/-- A world, the operations under way by their names, and the outcomes so far, oldest first. All that
several clients share is in the world: the store, the touches, the signals and the log. -/
structure Session (σ : Type) where
  world : World σ
  tasks : Nat → Option Task := fun _ => none
  outcomes : List Outcome := []

/-- What may happen next. -/
inductive Move
  /-- A clone that observes a signal starts an operation. -/
  | start (name : Nat) (signal : Signal) (op : Operation)
  /-- An operation makes its next request. -/
  | proceed (name : Nat) (now : Instant) (random : (count : Nat) → Drawn count)
  /-- The pending touch with some number is made. -/
  | touch (n : Nat) (now : Instant)
  /-- A signal is given. -/
  | cancel (signal : Signal)

namespace Session

variable {σ : Type} (driver : Storage.Driver σ) (c : Client)

/-- An operation has gone on to the rest of its program, and is over when nothing is left of it. -/
def advance (name : Nat) (op : Operation) (rest : Program (Except ServiceError op.Result))
    (w : World σ) (s : Session σ) : Session σ :=
  match rest with
  | .done result =>
    { world := w, tasks := Function.update s.tasks name none,
      outcomes := s.outcomes ++ [⟨name, op, result⟩] }
  | rest => { s with world := w, tasks := Function.update s.tasks name (some ⟨op, rest⟩) }

/-- Makes a move. Moving a name on that nothing goes by does nothing, and so does a touch that is not
pending. -/
def step (s : Session σ) : Move → Session σ
  | .start name signal op =>
    { s with
      tasks := Function.update s.tasks name (some ⟨op, (c.observing signal).perform op⟩) }
  | .proceed name now random =>
    match s.tasks name with
    | some ⟨op, .ask q next⟩ =>
      let (r, w) := s.world.reply driver ⟨fun _ => now, fun _ => random⟩ 0 q
      s.advance name op (next r) w
    | _ => s
  | .touch n now => { s with world := s.world.touch driver now n }
  | .cancel signal => { s with world := s.world.cancel signal }

/-- Makes the moves of a list. -/
def run (moves : List Move) (s : Session σ) : Session σ := moves.foldl (step driver c) s

/-- What holds at the start and is kept by every move holds after every run. The invariants of sessions are
carried along their runs by this. -/
theorem run_induction {P : Session σ → Prop} {s : Session σ} (start : P s)
    (step : ∀ s move, P s → P (Session.step driver c s move)) (moves : List Move) :
    P (run driver c moves s) := by
  induction moves generalizing s with
  | nil => exact start
  | cons move moves ih => exact ih (step s move start)

end Session

/-! ### What an outcome tells of the store -/

/-- The change of the store that a reply tells of. Lookups change nothing, and touches are not made by
programs but at moves of their own. -/
def Request.change? : (q : Request) → q.Reply → Option Change
  | .store (.store _), .ok record => some (.stored record)
  | .store (.revoke digest), .ok () => some (.revoked digest)
  | _, _ => none

/-- The replies to a lookup by a digest that a store in good order gives: a record with that digest,
or that there is none, or that it is expired. Other requests may be replied to with anything. -/
def Request.IsOrderly : (q : Request) → q.Reply → Prop
  | .store (.findByDigest digest), a =>
    (∀ record, a = .ok record → record.digest = digest) ∧
      ∀ e, a = .error e → e = .notFound ∨ e = .expired
  | _, _ => True

/-- The change of the store that the end of an operation tells of: a token was issued, and its record with
it is in the store, or a token was revoked, and the digest of its secret is not in the store any more. -/
def Operation.change? : (op : Operation) → Except ServiceError op.Result → Option Change
  | .issue _, .ok issued => some (.stored issued.record)
  | .revoke raw, .ok () =>
    match PlainToken.parse raw with
    | .ok token => some (.revoked (Secret.digest token.secret))
    | .error _ => none
  | _, _ => none

/-- What a presented token may be refused for. -/
def ServiceError.IsVerdict (e : ServiceError) : Prop :=
  e = .invalidFormat ∨ e = .tokenNotFound ∨ e = .tokenExpired

/-- What validating or inspecting is refused for is a verdict on the token, or that the client is
cancelled. -/
def Operation.RefusesByVerdict : (op : Operation) → Except ServiceError op.Result → Prop
  | .validate _, a | .inspect _, a => ∀ e, a = .error e → e.IsVerdict ∨ e = .cancelled
  | _, _ => True

/-- The end of an operation tells of the change that was made last, and refuses by a verdict. So from the
outcomes one can tell what the store was told, without having seen the requests. -/
def Operation.Tells (op : Operation) (made : Option Change) (a : Except ServiceError op.Result) :
    Prop := op.change? a = made ∧ op.RefusesByVerdict a

/-- The changes that the outcomes of a session tell of, oldest first. This is all that an observer of the
answers knows of the store. -/
def Session.history {σ : Type} (s : Session σ) : List Change :=
  s.outcomes.filterMap fun x => x.op.change? x.result

namespace Program

variable {α β : Type}

/-- A program that changes nothing, and what it may end with as long as the replies are orderly. It is
ordered by what may be replied, so that nothing is said of the store that replies. -/
inductive Looks (P : α → Prop) : Program α → Prop
  | done {a : α} (h : P a) : Looks P (.done a)
  | ask {q : Request} {next : q.Reply → Program α} (hq : ∀ r, q.change? r = none)
    (h : ∀ r, q.IsOrderly r → Looks P (next r)) : Looks P (.ask q next)

/-- A program that changes nothing before its last request, and what it may end with after the change
that its last request made. The change that was made just before the program goes on is given. -/
inductive Ends (P : Option Change → α → Prop) : Option Change → Program α → Prop
  | done {a : α} {made : Option Change} (h : P made a) : Ends P made (.done a)
  | ask {q : Request} {next : q.Reply → Program α}
    (h : ∀ r, q.IsOrderly r → Ends P (q.change? r) (next r)) : Ends P none (.ask q next)

theorem Looks.refused {P : Except ServiceError α → Prop} {e : ServiceError} (h : P (.error e))
    (w : Warning) : (Program.ask (.warn w) fun _ => .done (.error e)).Looks P :=
  .ask (fun _ => rfl) fun _ _ => .done h

/-- After a program that changes nothing, another one may change something. The first one has no last
request that changes, so that the change of both is the change of the second one. -/
theorem Ends.bind {Q : Option Change → β → Prop} {P : α → Prop} {p : Program α}
    {f : α → Program β} (hp : p.Looks P) (hf : ∀ a, P a → (f a).Ends Q none) :
    (p >>= f).Ends Q none := by
  -- along the first program, which ends where the other one begins
  induction hp with
  | done ha => exact hf _ ha
  | ask hq _ ih =>
    refine .ask fun r hr => ?_
    -- the reply told of no change, so the rest goes on from none
    rw [hq r]
    exact ih r hr

end Program

namespace Service

/-- What checking a presented text comes to: a record with the digest of its secret, or a verdict. -/
def MayPass (raw : String) : Except ServiceError Record → Prop
  | .ok record =>
    ∃ token, PlainToken.parse raw = .ok token ∧ record.digest = Secret.digest token.secret
  | .error e => e.IsVerdict

variable {s : Service} (hs : s.connected = true)

include hs

/-- Checking a presented text changes nothing, and comes to a record with the digest of its secret or to a
verdict, as long as the store is in good order. -/
theorem looks_inspect (raw : String) : (s.inspect raw).run.Looks (MayPass raw) := by
  have hformat : MayPass raw (.error .invalidFormat) := Or.inl rfl
  have hnotFound : MayPass raw (.error .tokenNotFound) := Or.inr (Or.inl rfl)
  have hexpired : MayPass raw (.error .tokenExpired) := Or.inr (Or.inr rfl)
  cases h : PlainToken.parse raw with
  | error e =>
    rw [inspect_of_malformed hs h]
    exact .refused hformat _
  | ok token =>
    rw [inspect_of_wellFormed hs h]
    refine .ask (fun _ => rfl) fun a ha => ?_
    cases a with
    | error e =>
      -- a store in good order fails in two ways only, and both are verdicts
      rcases ha.2 e rfl with rfl | rfl
      · exact .refused hnotFound _
      · exact .refused hexpired _
    | ok record =>
      -- nor does it come back with another record, so the digests agree
      have hd := ha.1 record rfl
      change Program.Looks _ (checkRecord (Secret.digest token.secret) record).run
      rw [checkRecord_of_eq hd]
      refine .ask (fun _ => rfl) fun now _ => ?_
      cases he : record.isExpiredAt now with
      | true =>
        obtain ⟨expiry, hr⟩ := afterReading_of_expired he
        rw [hr]
        exact .refused hexpired _
      | false =>
        rw [afterReading_of_live he]
        exact .done ⟨token, h, hd⟩

theorem ends_validate (raw : String) :
    (s.validate raw).run.Ends (Operation.validate raw).Tells none := by
  rw [validate_eq]
  refine .bind (looks_inspect hs raw) ?_
  intro a ha
  cases a with
  | error e =>
    refine .done ⟨rfl, ?_⟩
    rintro _ ⟨⟩
    exact Or.inl ha
  | ok record => exact .ask fun _ _ => .done ⟨rfl, by rintro _ ⟨⟩⟩

theorem ends_inspect (raw : String) :
    (s.inspect raw).run.Ends (Operation.inspect raw).Tells none := by
  -- inspecting goes on with nothing, and ends as checking does
  rw [← bind_pure (s.inspect raw).run]
  refine .bind (looks_inspect hs raw) ?_
  intro a ha
  refine .done ⟨rfl, ?_⟩
  rintro _ rfl
  exact Or.inl ha

/-- Revoking a token revokes the digest of its secret, since no record with another one passes. It is the
digest of the record that is revoked, and the check has made sure that the two are the same. -/
theorem ends_revoke (raw : String) :
    (s.revoke raw).run.Ends (Operation.revoke raw).Tells none := by
  rw [revoke_eq]
  refine .bind (looks_inspect hs raw) ?_
  intro a ha
  cases a with
  | error e => exact .done ⟨rfl, trivial⟩
  | ok record =>
    obtain ⟨token, hraw, hd⟩ := ha
    -- the last request revokes the digest of the record, which is that of the presented secret
    refine .ask fun answer _ => .done ⟨?_, trivial⟩
    cases answer with
    | error e => cases e <;> rfl
    | ok _ =>
      change Operation.change? (.revoke raw) (.ok ()) = some (.revoked record.digest)
      rw [Operation.change?, hraw, hd]

omit hs

theorem ends_afterClock (s : Service) (o : IssueOptions) (bytes : List UInt8) (now : Instant)
    (expiry : Except PolicyError (Option Instant)) :
    (s.afterClock o bytes now expiry).run.Ends (Operation.issue o).Tells none := by
  cases expiry with
  | error e =>
    rw [afterClock_error]
    exact .done ⟨rfl, trivial⟩
  | ok expiry =>
    rw [afterClock_ok, keeping_eq]
    refine .ask fun answer _ => ?_
    cases answer with
    | error e => exact .done ⟨rfl, trivial⟩
    | ok stored => exact .done ⟨rfl, trivial⟩

theorem ends_issue (hs : s.connected = true) (o : IssueOptions) :
    (s.issue o).run.Ends (Operation.issue o).Tells none := by
  cases h : o.check with
  | error e =>
    rw [issue_of_refused hs h]
    exact .done ⟨rfl, trivial⟩
  | ok _ =>
    rw [issue_of_accepted hs h]
    -- random bytes and the clock, neither of which is of the store
    refine .ask fun drawn _ => ?_
    cases drawn with
    | error cause => exact .done ⟨rfl, trivial⟩
    | ok bytes => exact .ask fun now _ => ends_afterClock s o bytes.toList now _

end Service

/-- **Every operation changes the store by its last request only, and its outcome tells how.** This is one
statement for all operations, so that a session need not ask which one it moves on. -/
theorem Client.ends_perform {c : Client} (hc : c.service.connected = true) (op : Operation) :
    (c.perform op).Ends op.Tells none := by
  -- the question for the signal is no change, and is the last request if the signal was given
  have hclient {α : Type} {P : Option Change → Except ServiceError α → Prop} {a : Action α}
      (hcancelled : P none (.error .cancelled)) (ha : a.run.Ends P none) :
      (c.unlessCancelled a).run.Ends P none := by
    rw [unlessCancelled_eq]
    refine .ask fun given _ => ?_
    cases given with
    | true => exact .done hcancelled
    | false => exact ha
  cases op with
  | issue o => exact hclient ⟨rfl, trivial⟩ (Service.ends_issue hc o)
  | validate raw =>
    exact hclient ⟨rfl, by rintro _ ⟨⟩; exact Or.inr rfl⟩ (Service.ends_validate hc raw)
  | inspect raw =>
    exact hclient ⟨rfl, by rintro _ ⟨⟩; exact Or.inr rfl⟩ (Service.ends_inspect hc raw)
  | revoke raw => exact hclient ⟨rfl, trivial⟩ (Service.ends_revoke hc raw)

/-! ### What an operation adds to the history -/

/-- An operation that has gone on to the rest of its program adds to the history the change that was made,
since it has ended if there was one. -/
theorem Session.history_advance {σ : Type} (s : Session σ) (name : Nat) {op : Operation}
    {rest : Program (Except ServiceError op.Result)} {made : Option Change}
    (h : rest.Ends op.Tells made) (w : World σ) :
    (s.advance name op rest w).history = s.history ++ made.toList := by
  cases h with
  | @done result _ htells =>
    change List.filterMap _ (s.outcomes ++ [⟨name, op, result⟩]) = _
    rw [List.filterMap_append, List.filterMap_cons, htells.1]
    cases made <;> rfl
  -- with a request left, no change has been made yet
  | ask hnext => exact (List.append_nil _).symm

end AccessTokens
