import AccessTokens.Proofs.Service.Issuing
import AccessTokens.Proofs.Service.Moves
import AccessTokens.Proofs.Storage.MemoryHistory

/-!
# The verdict on a presented token

A token is presented to a client that was built over a new store in memory and used for a while. Whether
it passes depends on nothing but the outcomes so far, the text, and the clock
(`verdict_follows_history`). The argument has three layers.

* The store: whatever the touches did, it finds by a digest exactly the record that its history keeps
  (`Memory.Remembers`).
* The session: the history of the store is the one that the outcomes tell (`Session.Faithful`). A request
  adds to it what its reply tells of (`World.remembers_reply`), and the form of the operations
  (`Client.ends_perform`) puts the change and the outcome into the same move.
* The operation: checking asks the store once and the clock once (`Service.afterLookup_unexpired`), and
  pending touches may be made in between (`World.runAmid`), which change nothing that is checked.
-/

namespace AccessTokens

open Time (Instant)
open Storage (Change KeptSince Memory)

/-! ### The store and the outcomes -/

/-- What the store is told by a request is what the reply tells of, touches aside. -/
theorem Request.change?_store (c : Storage.Call) (now : Instant) (a : c.Answer) :
    Request.change? (.store c) a = (Change.ofAnswer? c now a).filter Change.isLasting := by
  cases c <;> cases a <;> rfl

namespace World

variable {w : World Memory} {told : List Change}

/-- A request adds to the history what its reply tells of. Whoever sees the replies of all requests can
keep the history of the store without a look at it. -/
theorem remembers_reply (h : w.store.Remembers told) (o : Occasion) (n : Nat) (q : Request) :
    (w.reply Memory.driver o n q).2.store.Remembers
      (told ++ (q.change? (w.reply Memory.driver o n q).1).toList) := by
  cases q with
  | store c =>
    have hc := h.answer c (o.clock n)
    rw [← Request.change?_store] at hc
    exact hc
  | _ =>
    -- no other request has to do with the store
    change w.store.Remembers (told ++ [])
    rw [List.append_nil]
    exact h

/-- A store that remembers replies in good order: it comes back with a record of the digest that it was
asked for, or says that there is none or that it is expired. -/
theorem orderly_reply (h : w.store.Remembers told) (o : Occasion) (n : Nat) (q : Request) :
    q.IsOrderly (w.reply Memory.driver o n q).1 := by
  rcases q with (_ | digest | _ | _ | _) | _ | _ | _ | _ | _
  case store.findByDigest =>
    change Request.IsOrderly (.store (.findByDigest digest))
      (w.store.findByDigest digest (o.clock n))
    -- the two ways to come back are what its history says of the digest
    rcases h.findByDigest_cases digest (o.clock n) with
      ⟨e, heq, he⟩ | ⟨r, since, used, -, rfl, heq⟩
    · rw [heq]
      exact ⟨by rintro _ ⟨⟩, by rintro _ ⟨⟩; exact he⟩
    · rw [heq]
      exact ⟨by rintro _ ⟨⟩; rfl, by rintro _ ⟨⟩⟩
  all_goals trivial

theorem remembers_touch (h : w.store.Remembers told) (now : Instant) (n : Nat) :
    (w.touch Memory.driver now n).store.Remembers told := by
  rw [touch]
  split
  · exact h
  · next id _ =>
    -- a touch is no lasting change, so there is nothing to add to what was told
    have hc := h.answer (.touch id) now
    rw [← Request.change?_store] at hc
    change (Memory.answer (.touch id) now w.store).2.Remembers (told ++ []) at hc
    rw [List.append_nil] at hc
    exact hc

end World

namespace Session

/-- The store holds what the outcomes tell, and so it will when the operations under way have ended.
What was refused, and what will be, is refused by a verdict. -/
structure Faithful (s : Session Memory) : Prop where
  store : s.world.store.Remembers s.history
  outcomes : ∀ x ∈ s.outcomes, x.op.RefusesByVerdict x.result
  tasks : ∀ name task, s.tasks name = some task → task.rest.Ends task.op.Tells none

variable {s : Session Memory}

/-- An operation that has made its request leaves what the outcomes tell, its own included. It has told the
store of a change exactly when it ends with the outcome that tells of it. -/
theorem Faithful.advance (h : s.Faithful) (name : Nat) {op : Operation}
    {rest : Program (Except ServiceError op.Result)} {made : Option Change}
    (hrest : rest.Ends op.Tells made) {w : World Memory}
    (hw : w.store.Remembers (s.history ++ made.toList)) : (s.advance name op rest w).Faithful := by
  have hstore : (s.advance name op rest w).world.store.Remembers
      (s.advance name op rest w).history := by
    -- what was told grows by the change that was made, in the store and in the outcomes alike
    rw [s.history_advance name hrest w]
    cases rest <;> exact hw
  cases hrest with
  | @done result _ htells =>
    -- the operation is over, and its outcome is one more
    refine ⟨hstore, fun x hx => ?_, tasks_update h.tasks name (by simp)⟩
    rcases List.mem_append.1 hx with hx | hx
    · exact h.outcomes x hx
    · rw [List.mem_singleton] at hx
      subst hx
      exact htells.2
  | ask hnext =>
    refine ⟨hstore, h.outcomes, tasks_update h.tasks name ?_⟩
    rintro task ⟨⟩
    exact .ask hnext

/-- **Every move keeps the store and the outcomes in step.** A touch is neither told of nor remembered, so
it may come at any time. -/
theorem Faithful.step {c : Client} (hc : c.service.connected = true) (h : s.Faithful) (move : Move) :
    (Session.step Memory.driver c s move).Faithful := by
  cases move with
  | start name signal op =>
    -- observing another signal, a clone is still connected
    refine ⟨h.store, h.outcomes, tasks_update h.tasks name ?_⟩
    rintro task ⟨⟩
    exact Client.ends_perform (c := c.observing signal) hc op
  | proceed name now random =>
    rw [Session.step]
    split
    · next op q next htask =>
      -- the form of the operation says what its outcome will tell, given that the store replies in order
      have ht := h.tasks name _ htask
      cases ht with
      | ask hnext =>
        exact h.advance name (hnext _ (World.orderly_reply h.store _ _ q))
          (World.remembers_reply h.store _ _ q)
    · exact h
  | touch n now => exact ⟨World.remembers_touch h.store now n, h.outcomes, h.tasks⟩
  | cancel signal => exact ⟨h.store, h.outcomes, h.tasks⟩

theorem faithful_run {c : Client} (hc : c.service.connected = true) (moves : List Move) :
    (run Memory.driver c moves { world := { store := Memory.empty } }).Faithful :=
  run_induction Memory.driver c ⟨Memory.Remembers.empty, by simp, by simp⟩
    (fun _ move h => h.step hc move) moves

end Session

/-! ### One operation amid touches -/

namespace World

variable {σ α β : Type}

/-- Makes pending touches, each the one with some number at some reading of the clock. -/
def touches (driver : Storage.Driver σ) (made : List (Nat × Instant)) (w : World σ) : World σ :=
  made.foldl (fun w x => w.touch driver x.2 x.1) w

/-- Runs a program to its end, its first request having the number `n`. Before each request the
touches that are given for its number are made, which is all that others may do to the store meanwhile
without a move of their own. -/
def runAmid (driver : Storage.Driver σ) (o : Occasion) (between : Nat → List (Nat × Instant)) :
    Nat → Program α → World σ → α × World σ
  | _, .done a, w => (a, w)
  | n, .ask q next, w =>
    let (r, w') := (w.touches driver (between n)).reply driver o n q
    runAmid driver o between (n + 1) (next r) w'

variable {driver : Storage.Driver σ} {o : Occasion} {between : Nat → List (Nat × Instant)} {n : Nat}

theorem runAmid_bind (p : Program α) (f : α → Program β) (w : World σ) :
    ∃ n' w', w.runAmid driver o between n (p >>= f) =
      runAmid driver o between n' (f (w.runAmid driver o between n p).1) w' := by
  -- where the first program ends depends on the replies, so the number and the world are only said to exist
  induction p generalizing n w with
  | done a => exact ⟨n, w, rfl⟩
  | ask q next ih => exact ih _ _

theorem cancelled_touch (now : Instant) (n : Nat) (w : World σ) :
    (w.touch driver now n).cancelled = w.cancelled := by
  rw [touch]
  split <;> rfl

theorem cancelled_touches (made : List (Nat × Instant)) (w : World σ) :
    (w.touches driver made).cancelled = w.cancelled := by
  induction made generalizing w with
  | nil => rfl
  | cons x made ih => exact (ih _).trans (cancelled_touch _ _ w)

theorem remembers_touches {w : World Memory} {told : List Change} (h : w.store.Remembers told)
    (made : List (Nat × Instant)) : (w.touches Memory.driver made).store.Remembers told := by
  induction made generalizing w with
  | nil => exact h
  | cons x made ih => exact ih (remembers_touch h x.2 x.1)

end World

/-! ### The verdict -/

namespace Service

variable {s : Service} (hs : s.connected = true) {o : Occasion}
  {between : Nat → List (Nat × Instant)} {n : Nat} {w : World Memory} {told : List Change}
  {raw : String}

/-- A record that the store has for the right digest passes while it is not expired. The store looks at
the expiry first and the service looks again, at a later reading of the clock, which decides. -/
theorem afterLookup_unexpired {token : PlainToken} {r : Record}
    (hd : r.digest = Secret.digest token.secret) (hclock : o.clock n ≤ o.clock (n + 1))
    (w : World Memory) :
    (w.runAmid Memory.driver o between (n + 1)
        (afterLookup token (Storage.unexpired r (o.clock n)))).1 =
      if r.isExpiredAt (o.clock (n + 1)) then .error .tokenExpired else .ok r := by
  rw [Storage.unexpired]
  cases he : r.isExpiredAt (o.clock n) with
  | true =>
    -- the store refused it already, and the clock has not gone back since
    rw [Record.isExpiredAt_mono hclock he]
    rfl
  | false =>
    change (World.runAmid Memory.driver o between (n + 1)
      (checkRecord (Secret.digest token.secret) r).run w).1 = _
    rw [checkRecord_of_eq hd]
    change (World.runAmid Memory.driver o between (n + 2)
      (afterReading r (o.clock (n + 1))) _).1 = _
    cases he' : r.isExpiredAt (o.clock (n + 1)) with
    | true =>
      -- it expired between the two readings
      obtain ⟨expiry, hr⟩ := afterReading_of_expired he'
      rw [hr]
      rfl
    | false =>
      rw [afterReading_of_live he']
      rfl

include hs

theorem inspect_malformed {e : PartCountError} (hraw : PlainToken.parse raw = .error e) :
    (w.runAmid Memory.driver o between n (s.inspect raw).run).1 = .error .invalidFormat := by
  rw [inspect_of_malformed hs hraw]
  rfl

theorem inspect_missing (h : w.store.Remembers told) {token : PlainToken}
    (hraw : PlainToken.parse raw = .ok token)
    (hno : ∀ r since, KeptSince told r since → r.digest ≠ Secret.digest token.secret) :
    (w.runAmid Memory.driver o between n (s.inspect raw).run).1 = .error .tokenNotFound := by
  rw [inspect_of_wellFormed hs hraw]
  have hfind := (World.remembers_touches h (between n)).findByDigest_missing hno (o.clock n)
  -- the touches before the lookup have not changed what the store knows of the digest
  change (World.runAmid Memory.driver o between (n + 1)
    (afterLookup token (Memory.findByDigest _ (o.clock n) _)) _).1 = _
  rw [hfind]
  rfl

theorem inspect_kept (h : w.store.Remembers told) {token : PlainToken}
    (hraw : PlainToken.parse raw = .ok token) (hclock : o.clock n ≤ o.clock (n + 1)) {r : Record}
    {since : List Change} (hk : KeptSince told r since)
    (hd : r.digest = Secret.digest token.secret) :
    ∃ used, (w.runAmid Memory.driver o between n (s.inspect raw).run).1 =
      if r.isExpiredAt (o.clock (n + 1)) then .error .tokenExpired
      else .ok { r with lastUsedAt := used } := by
  rw [inspect_of_wellFormed hs hraw]
  obtain ⟨used, hfind⟩ := (World.remembers_touches h (between n)).findByDigest_kept hk
  refine ⟨used, ?_⟩
  change (World.runAmid Memory.driver o between (n + 1)
    (afterLookup token (Memory.findByDigest _ (o.clock n) _)) _).1 = _
  rw [← hd, hfind]
  exact afterLookup_unexpired (r := { r with lastUsedAt := used }) hd hclock _

omit hs

theorem validate_answer (s : Service) (o : Occasion) (between : Nat → List (Nat × Instant)) (n : Nat)
    (raw : String) (w : World Memory) :
    (w.runAmid Memory.driver o between n (s.validate raw).run).1 =
      (w.runAmid Memory.driver o between n (s.inspect raw).run).1 := by
  rw [validate_eq]
  obtain ⟨n', w', h⟩ := World.runAmid_bind (n := n) (s.inspect raw).run afterValidated w
  rw [h]
  cases (w.runAmid Memory.driver o between n (s.inspect raw).run).1 with
  | ok record => rfl
  | error e => rfl

end Service

/-- A client whose signal was not given does what its service does, one request later. The touches that are
made while it asks for the signal come before all that the service does. -/
theorem Client.runAmid_unlessCancelled {c : Client} {w : World Memory} (hc : c.signal ∉ w.cancelled)
    {α : Type} (a : Action α) (o : Occasion) (between : Nat → List (Nat × Instant)) :
    (w.runAmid Memory.driver o between 0 (c.unlessCancelled a).run).1 =
      ((w.touches Memory.driver (between 0)).runAmid Memory.driver o between 1 a.run).1 := by
  rw [unlessCancelled_eq]
  change (World.runAmid Memory.driver o between 1
    (if (w.touches Memory.driver (between 0)).cancelled.contains c.signal
      then .done (.error .cancelled) else a.run) _).1 = _
  rw [World.cancelled_touches, if_neg (by simpa using hc)]

/-- A client that was built has a store, whether it was given one or makes its own. -/
theorem Builder.connected_of_build {b : Builder} {t : Instant} {signal : Signal} {c : Client}
    (h : b.build t signal = .ok c) : c.service.connected = true := by
  rw [(service_of_build h).2]

/-- **The verdict on a presented token follows from the history.** A client is built, and a session of
its clones has made any moves from an empty store in memory: operations under way at the same time,
pending touches, signals. A text is then presented, to be validated or inspected, by a clone whose
signal was not given, and pending touches may be made before each of its requests. As long as the clock
does not go back meanwhile, the answer is:

* a refusal of the format, if the text does not read as a token;
* that the token is not found, if no issued record with the digest of its secret is there, or its digest
  was revoked since;
* that the token is expired, if the record that is there is expired at the reading of the clock that
  the operation itself would take;
* and otherwise that record, as it was issued but for the time of its last use.

So the answer is never that the token is another one's, that there is no store, or that the store
failed. Nor was it for any text that was validated or inspected during the session: what was refused
was refused for one of the reasons above, or because the signal of the clone was given. -/
theorem verdict_follows_history {b : Builder} {t : Instant} {signal : Signal} {c : Client}
    (hbuild : b.build t signal = .ok c) (moves : List Move) (raw : String) (signal' : Signal)
    (o : Occasion) (between : Nat → List (Nat × Instant))
    (hclock : ∀ n, o.clock n ≤ o.clock (n + 1)) :
    let s := Session.run Memory.driver c moves { world := { store := Memory.empty } }
    (∀ x ∈ s.outcomes, x.op.RefusesByVerdict x.result) ∧
    (signal' ∉ s.world.cancelled →
      ∀ a : Action Record,
        a = (c.observing signal').validate raw ∨ a = (c.observing signal').inspect raw →
        let answer := (s.world.runAmid Memory.driver o between 0 a.run).1
        (∀ e, PlainToken.parse raw = .error e → answer = .error .invalidFormat) ∧
        (∀ token, PlainToken.parse raw = .ok token →
          ((∀ r since, KeptSince s.history r since → r.digest ≠ Secret.digest token.secret) →
            answer = .error .tokenNotFound) ∧
          ∀ r since, KeptSince s.history r since → r.digest = Secret.digest token.secret →
            if r.isExpiredAt (o.clock 2) then answer = .error .tokenExpired
            else ∃ used, answer = .ok { r with lastUsedAt := used }) ∧
        answer ≠ .error .tokenInvalid ∧ answer ≠ .error .noStore ∧
          ∀ e, answer ≠ .error (.storage e)) := by
  intro s
  have hc : c.service.connected = true := Builder.connected_of_build hbuild
  have hs : s.Faithful := Session.faithful_run hc moves
  refine ⟨hs.outcomes, ?_⟩
  intro hsignal a ha answer
  -- validating and inspecting answer alike, one request after the signal was asked for
  let w : World Memory := s.world.touches Memory.driver (between 0)
  have hw : w.store.Remembers s.history := World.remembers_touches hs.store (between 0)
  have hanswer : answer =
      (w.runAmid Memory.driver o between 1 (c.service.inspect raw).run).1 := by
    rcases ha with rfl | rfl
    · exact (Client.runAmid_unlessCancelled hsignal (c.service.validate raw) o between).trans
        (Service.validate_answer c.service o between 1 raw w)
    · exact Client.runAmid_unlessCancelled hsignal (c.service.inspect raw) o between
  rw [hanswer]
  cases hraw : PlainToken.parse raw with
  | error e =>
    rw [Service.inspect_malformed hc hraw]
    simp
  | ok token =>
    -- the digest has a kept record or it has none, and each case has its answer
    by_cases hno : ∀ r since, KeptSince s.history r since → r.digest ≠ Secret.digest token.secret
    · rw [Service.inspect_missing hc hw hraw hno]
      refine ⟨by rintro e ⟨⟩, ?_, by simp⟩
      rintro _ ⟨⟩
      exact ⟨fun _ => rfl, fun r since hk hd => absurd hd (hno r since hk)⟩
    · refine ⟨by rintro e ⟨⟩, ?_, ?_⟩
      · rintro _ ⟨⟩
        refine ⟨fun h => absurd h hno, fun r since hk hd => ?_⟩
        obtain ⟨used, hkept⟩ := Service.inspect_kept hc hw hraw (hclock 1) hk hd
        rw [hkept]
        split
        · rfl
        · exact ⟨used, rfl⟩
      -- a kept record leaves two answers, and neither is one of those that are ruled out
      · simp only [not_forall, not_not] at hno
        obtain ⟨r, since, hk, hd⟩ := hno
        obtain ⟨used, hkept⟩ := Service.inspect_kept hc hw hraw (hclock 1) hk hd
        rw [hkept]
        split <;> simp

/-- The client that is built when nothing is set. -/
def plainClient : Client := { service := {}, signal := 0 }

/-- An occasion on which the clock stands still and every random byte is zero. -/
def stillOccasion : Occasion where
  clock _ := .epoch
  random _ count := .ok (Vector.replicate count 0)

/-- A clone issues a token and is moved on until it has. -/
def issueOne : List Move :=
  .start 0 0 (.issue { userId := 1 }) ::
    List.replicate 4 (.proceed 0 (stillOccasion.clock 0) (stillOccasion.random 0))

/-- The secret of the token. -/
def zeroSecret : String := plainClient.service.secretOf (List.replicate 32 0)

/-- The record of the token, which expires after a day. -/
def dayRecord : Record :=
  { Record.fresh 1 (Secret.digest zeroSecret) none [] .epoch (some ⟨86400, 0, by decide⟩) with
    id := 1 }

theorem verdict_follows_history_issueOne :
    let s := Session.run Memory.driver plainClient issueOne { world := { store := Memory.empty } }
    ({} : Builder).build .epoch 0 = .ok plainClient ∧
      (∀ n, stillOccasion.clock n ≤ stillOccasion.clock (n + 1)) ∧ 0 ∉ s.world.cancelled ∧
      ∃ used, (s.world.runAmid Memory.driver stillOccasion (fun _ => []) 0
        ((plainClient.observing 0).validate ("1|" ++ zeroSecret)).run).1 =
          .ok { dayRecord with lastUsedAt := used } := by
  intro s
  have hbuild : ({} : Builder).build .epoch 0 = .ok plainClient := rfl
  have hclock (n : Nat) : stillOccasion.clock n ≤ stillOccasion.clock (n + 1) := Instant.le_refl _
  have hsignal : 0 ∉ s.world.cancelled := by decide +kernel
  have hhistory : s.history = [.stored dayRecord] := by decide +kernel
  have hraw : PlainToken.parse ("1|" ++ zeroSecret) = .ok ⟨"1", zeroSecret⟩ := by decide +kernel
  have hkept : KeptSince s.history dayRecord [] := by
    rw [hhistory]
    exact ⟨⟨[], rfl⟩, by simp⟩
  have hverdict := ((verdict_follows_history hbuild issueOne ("1|" ++ zeroSecret) 0 stillOccasion
    (fun _ => []) hclock).2 hsignal _ (Or.inl rfl)).2.1 _ hraw
  have hverdict := hverdict.2 dayRecord [] hkept rfl
  rw [if_neg (by decide)] at hverdict
  exact ⟨hbuild, hclock, hsignal, hverdict⟩

end AccessTokens
