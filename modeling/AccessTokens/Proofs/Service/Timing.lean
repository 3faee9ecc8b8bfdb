import AccessTokens.Proofs.Service.Moves
import AccessTokens.Proofs.Storage.LastUse
import Mathlib.Data.List.Induction

/-!
# Touches at any time

Two sessions make the same moves but for their touches, which each of them makes when it likes or not at
all. Up to the times of the last use, every operation has the same outcome in both, and both stores are
the same (`Session.outcomes_of_same_moves`).

That is because no operation looks at the last use of a record. An operation is asked for one thing after
another, and `Program.Alike` says of two programs that they ask for the same as long as they are told the
same up to the last use; every operation is alike to itself (`Client.alike_perform`). A session with its
touches then stays alike to the session without them, move by move (`Session.Alike`).
-/

namespace AccessTokens

open Time (Instant)
open Storage (Memory)

/-! ### Programs -/

/-- A reply but for the time of the last use of its record. Replies without a record are compared as they
are. -/
def Request.withoutUse : (q : Request) → q.Reply → q.Reply
  | .store c, a => c.withoutUse a
  | .clock, a => a
  | .randomBytes _, a => a
  | .touchLater _, a => a
  | .warn _, a => a
  | .isCancelled _, a => a

/-- What an operation gives but for the time of the last use of its record. -/
def Operation.withoutUse : (op : Operation) → Except ServiceError op.Result →
    Except ServiceError op.Result
  | .issue _, a => a.map fun issued => { issued with record := issued.record.withoutUse }
  | .validate _, a | .inspect _, a => a.map Record.withoutUse
  | .revoke _, a => a

namespace Program

variable {α β γ δ : Type} {f : α → γ} {g : β → δ}

/-- Two programs ask for the same as long as they are told the same up to the last use, and then end with
the same as far as `f` goes. -/
inductive Alike (f : α → γ) : Program α → Program α → Prop
  | done {a b : α} (h : f a = f b) : Alike f (.done a) (.done b)
  | ask {q : Request} {next next' : q.Reply → Program α}
    (h : ∀ r r', q.withoutUse r = q.withoutUse r' → Alike f (next r) (next' r')) :
    Alike f (.ask q next) (.ask q next')

theorem Alike.bind {p p' : Program α} {k k' : α → Program β} (hp : p.Alike f p')
    (hk : ∀ a b, f a = f b → (k a).Alike g (k' b)) : (p >>= k).Alike g (p' >>= k') := by
  induction hp with
  | done h => exact hk _ _ h
  | ask _ ih => exact .ask ih

end Program

/-! ### Operations -/

theorem cases_of_map_eq {ε α β : Type} {f : α → β} {a b : Except ε α} (h : a.map f = b.map f) :
    (∃ e, a = .error e ∧ b = .error e) ∨ ∃ r s, a = .ok r ∧ b = .ok s ∧ f r = f s := by
  cases a with
  | error e =>
    cases b with
    | error e' =>
      cases h
      exact .inl ⟨e, rfl, rfl⟩
    | ok s => cases h
  | ok r =>
    cases b with
    | error e' => cases h
    | ok s => exact .inr ⟨r, s, rfl, rfl, Except.ok.inj h⟩

namespace Service

theorem alike_refused {α γ : Type} {f : Except ServiceError α → γ} (w : Warning) (e : ServiceError) :
    (Program.ask (.warn w) fun _ => .done (.error e)).Alike f
      (.ask (.warn w) fun _ => .done (.error e)) :=
  .ask fun _ _ _ => .done rfl

theorem Refuses.alike {α γ : Type} {f : Except ServiceError α → γ}
    {p : Program (Except ServiceError α)} (h : Refuses p) : p.Alike f p := by
  cases h with
  | silently e => exact .done rfl
  | warning w e => exact alike_refused w e

theorem alike_afterReading {r s : Record} (h : r.withoutUse = s.withoutUse) (now : Instant) :
    (afterReading r now).Alike (Except.map Record.withoutUse) (afterReading s now) := by
  -- of the record only the id and the expiry are looked at
  obtain ⟨hid, -, hexpires⟩ := Record.eq_of_withoutUse_eq h
  rw [afterReading, afterReading, hid, hexpires]
  split
  · split
    · exact alike_refused _ _
    · exact .done (congrArg Except.ok h)
  · exact .done (congrArg Except.ok h)

theorem alike_afterLookup (token : PlainToken) {a b : Except StorageError Record}
    (h : a.map Record.withoutUse = b.map Record.withoutUse) :
    (afterLookup token a).Alike (Except.map Record.withoutUse) (afterLookup token b) := by
  rcases cases_of_map_eq h with ⟨e, rfl, rfl⟩ | ⟨r, s, rfl, rfl, hrs⟩
  -- the same error is a refusal in both
  · rcases afterLookup_cases token (.error e) with h | ⟨_, ⟨⟩, _⟩
    exact h.alike
  · obtain ⟨hid, hdigest, -⟩ := Record.eq_of_withoutUse_eq hrs
    rw [afterLookup, afterLookup]
    by_cases hd : s.digest = Secret.digest token.secret
    · rw [checkRecord_of_eq (hdigest.trans hd), checkRecord_of_eq hd]
      refine .ask fun now now' hnow => ?_
      rw [show now = now' from hnow]
      exact alike_afterReading hrs now'
    · rw [checkRecord_of_ne hd, checkRecord_of_ne (hdigest ▸ hd), hid]
      exact alike_refused _ _

/-- Checking is alike to itself. It looks at the digest, the id and the expiry of a record, in this order,
and at nothing else. -/
theorem alike_inspect (s : Service) (raw : String) :
    (s.inspect raw).run.Alike (Except.map Record.withoutUse) (s.inspect raw).run := by
  rcases s.inspect_cases raw with h | ⟨token, -, heq⟩
  · exact h.alike
  · rw [heq]
    exact .ask fun a b h => alike_afterLookup token h

/-- What is handed over is the id, and what is deleted is the digest: neither is the last use. So an
operation that is told of another last use asks for the same things ever after. -/
theorem alike_validate (s : Service) (raw : String) :
    (s.validate raw).run.Alike (Except.map Record.withoutUse) (s.validate raw).run := by
  rw [validate_eq]
  refine (s.alike_inspect raw).bind fun a b h => ?_
  rcases cases_of_map_eq h with ⟨e, rfl, rfl⟩ | ⟨r, s, rfl, rfl, hrs⟩
  · exact .done rfl
  · rw [afterValidated, afterValidated, (Record.eq_of_withoutUse_eq hrs).1]
    exact .ask fun _ _ _ => .done h

theorem alike_revoke (s : Service) (raw : String) :
    (s.revoke raw).run.Alike id (s.revoke raw).run := by
  rw [revoke_eq]
  refine (s.alike_inspect raw).bind fun a b h => ?_
  rcases cases_of_map_eq h with ⟨e, rfl, rfl⟩ | ⟨r, s, rfl, rfl, hrs⟩
  · exact .done rfl
  · rw [afterRevocable, afterRevocable, (Record.eq_of_withoutUse_eq hrs).2.1]
    exact .ask fun a b h => .done (congrArg (Except.mapError ServiceError.ofStorage) h)

theorem alike_issue (s : Service) (o : IssueOptions) :
    (s.issue o).run.Alike (Operation.issue o).withoutUse (s.issue o).run := by
  -- neither the bytes nor the clock are of a store, so both runs are told the same of them
  rcases s.issue_cases o with ⟨e, heq⟩ | heq
  · rw [heq]
    exact .done rfl
  rw [heq]
  refine .ask fun drawn drawn' hdrawn => ?_
  rw [show drawn = drawn' from hdrawn]
  cases drawn' with
  | error cause => exact .done rfl
  | ok bytes =>
    refine .ask fun now now' hnow => ?_
    rw [show now = now' from hnow]
    cases s.policy.expiryFrom now' with
    | error e =>
      rw [afterClock_error]
      exact .done rfl
    | ok expiry =>
      rw [afterClock_ok, keeping_eq]
      refine .ask fun a b h => ?_
      rcases cases_of_map_eq h with ⟨e, rfl, rfl⟩ | ⟨r, t, rfl, rfl, hrt⟩
      · exact .done rfl
      · -- the plain text has the id of the record in it, which the last use leaves alone
        have hid := (Record.eq_of_withoutUse_eq hrt).1
        refine .done (congrArg Except.ok ?_)
        change IssuedToken.mk _ r.withoutUse = ⟨_, t.withoutUse⟩
        rw [hid, hrt]

end Service

/-- **No operation looks at the last use of a record.** Told of records that differ in it and in nothing
else, it asks for the same and ends with the same, up to that time in what it hands out. -/
theorem Client.alike_perform (c : Client) (op : Operation) :
    (c.perform op).Alike op.withoutUse (c.perform op) := by
  rw [perform_eq]
  refine .ask fun given given' h => ?_
  rw [show given = given' from h]
  cases given' with
  | true => cases op <;> exact .done rfl
  | false =>
    cases op with
    | issue o => exact c.service.alike_issue o
    | validate raw => exact c.service.alike_validate raw
    | inspect raw => exact c.service.alike_inspect raw
    | revoke raw => exact c.service.alike_revoke raw

/-! ### Sessions -/

/-- An outcome but for the time of the last use of its record. -/
def Outcome.withoutUse (x : Outcome) : Outcome := { x with result := x.op.withoutUse x.result }

/-- The same operation goes by a name in two sessions, up to what it was told of the last use. -/
inductive Task.Alike : Option Task → Option Task → Prop
  | none : Alike none none
  | some {op : Operation} {rest rest' : Program (Except ServiceError op.Result)}
    (h : rest.Alike op.withoutUse rest') : Alike (some ⟨op, rest⟩) (some ⟨op, rest'⟩)

/-- A move that makes a touch. -/
def Move.isTouch : Move → Bool
  | .touch _ _ => true
  | _ => false

namespace Session

/-- Two sessions are the same but for their touches and the times of the last use. Their logs are not
compared. -/
structure Alike (s t : Session Memory) : Prop where
  store : s.world.store.SameButUse t.world.store
  cancelled : s.world.cancelled = t.world.cancelled
  tasks : ∀ name, Task.Alike (s.tasks name) (t.tasks name)
  outcomes : s.outcomes.map Outcome.withoutUse = t.outcomes.map Outcome.withoutUse

variable {c : Client} {s t : Session Memory}

theorem Alike.refl (hs : ∀ name, s.tasks name = none) : s.Alike s :=
  ⟨.refl _, rfl, fun name => hs name ▸ .none, rfl⟩

theorem Alike.update (h : s.Alike t) (name : Nat) {x y : Option Task} (hname : Task.Alike x y)
    (name' : Nat) :
    Task.Alike (Function.update s.tasks name x name') (Function.update t.tasks name y name') := by
  -- the name itself has the new pair, and every other name the old one
  by_cases hn : name' = name
  · subst hn
    simpa only [Function.update_self] using hname
  · simpa only [Function.update_of_ne hn] using h.tasks name'

/-- A touch is beside the point: the session that makes it stays alike to the one that does not. It changes
the last use of one record at most, and takes the touch out of the pending ones. -/
theorem Alike.touch (h : s.Alike t) (n : Nat) (now : Instant) :
    (s.step Memory.driver c (.touch n now)).Alike t := by
  change Session.Alike { s with world := s.world.touch Memory.driver now n } t
  rw [World.touch]
  split
  · exact h
  · exact ⟨(Memory.SameButUse.touched _ _ _).trans h.store, h.cancelled, h.tasks, h.outcomes⟩

/-- A request is replied to alike in both worlds. The clock and the random source are those of the occasion,
and a lookup finds the same record but for its last use. -/
theorem Alike.reply (h : s.Alike t) (o : Occasion) (n : Nat) (q : Request) :
    q.withoutUse (s.world.reply Memory.driver o n q).1 =
        q.withoutUse (t.world.reply Memory.driver o n q).1 ∧
      (s.world.reply Memory.driver o n q).2.store.SameButUse
        (t.world.reply Memory.driver o n q).2.store ∧
      (s.world.reply Memory.driver o n q).2.cancelled =
        (t.world.reply Memory.driver o n q).2.cancelled := by
  -- a call is answered alike by stores that are the same but for the last use; the rest is not of the store
  cases q with
  | store x =>
    obtain ⟨hanswer, hstore⟩ := h.store.answer x (o.clock n)
    exact ⟨hanswer, hstore, h.cancelled⟩
  | isCancelled g =>
    refine ⟨?_, h.store, h.cancelled⟩
    change s.world.cancelled.contains g = t.world.cancelled.contains g
    rw [h.cancelled]
  | _ => exact ⟨rfl, h.store, h.cancelled⟩

theorem Alike.advance (h : s.Alike t) (name : Nat) {op : Operation}
    {rest rest' : Program (Except ServiceError op.Result)} (hrest : rest.Alike op.withoutUse rest')
    {w w' : World Memory} (hstore : w.store.SameButUse w'.store)
    (hcancelled : w.cancelled = w'.cancelled) :
    (s.advance name op rest w).Alike (t.advance name op rest' w') := by
  cases hrest with
  | @done a b hab =>
    refine ⟨hstore, hcancelled, h.update name .none, ?_⟩
    -- both end, with results that are the same but for the last use
    change (s.outcomes ++ [_]).map _ = (t.outcomes ++ [_]).map _
    rw [List.map_append, List.map_append, h.outcomes]
    refine congrArg (_ ++ ·) (congrArg ([·]) ?_)
    change Outcome.mk name op (op.withoutUse a) = ⟨name, op, op.withoutUse b⟩
    rw [hab]
  | ask hnext => exact ⟨hstore, hcancelled, h.update name (.some (.ask hnext)), h.outcomes⟩

/-- **Every other move is made alike**, whatever it is, since a request is replied to alike in both worlds
and the operations go on alike. -/
theorem Alike.step (h : s.Alike t) {move : Move} (hmove : move.isTouch = false) :
    (s.step Memory.driver c move).Alike (t.step Memory.driver c move) := by
  cases move with
  | start name signal op =>
    exact ⟨h.store, h.cancelled,
      h.update name (.some ((c.observing signal).alike_perform op)), h.outcomes⟩
  | proceed name now random =>
    have htasks := h.tasks name
    -- the same operation goes by the name in both, and stands at the same request
    generalize hx : s.tasks name = x at htasks
    generalize hy : t.tasks name = y at htasks
    cases htasks with
    | none =>
      rw [(proceed_idle (by simp [hx]) Memory.driver c now random).1,
        (proceed_idle (by simp [hy]) Memory.driver c now random).1]
      exact h
    | @some op rest rest' hrest =>
      cases hrest with
      | done hab =>
        rw [(proceed_idle (not_ask_of_done hx) Memory.driver c now random).1,
          (proceed_idle (not_ask_of_done hy) Memory.driver c now random).1]
        exact h
      | @ask q next next' hnext =>
        obtain ⟨hreply, hstore, hcancelled⟩ := h.reply ⟨fun _ => now, fun _ => random⟩ 0 q
        rw [step_proceed hx, step_proceed hy]
        exact h.advance name (hnext _ _ hreply) hstore hcancelled
  | touch n now => cases hmove
  | cancel signal => exact ⟨h.store, congrArg (signal :: ·) h.cancelled, h.tasks, h.outcomes⟩

/-- A session is alike to the session without its touches. The moves that are left are the same on both
sides, in the same order. -/
theorem alike_run (hs : ∀ name, s.tasks name = none) (moves : List Move) :
    (run Memory.driver c moves s).Alike
      (run Memory.driver c (moves.filter fun move => !move.isTouch) s) := by
  -- The last move is a touch, which only the first session makes, or a move that both make.
  induction moves using List.reverseRecOn with
  | nil => exact .refl hs
  | append_singleton moves move ih =>
    rw [run_concat, List.filter_append]
    cases hmove : move.isTouch with
    | true =>
      obtain ⟨n, now, rfl⟩ : ∃ n now, move = .touch n now := by
        cases move with
        | touch n now => exact ⟨n, now, rfl⟩
        | _ => cases hmove
      rw [List.filter_cons_of_neg (by simp [hmove]), List.filter_nil, List.append_nil]
      exact ih.touch n now
    | false =>
      rw [List.filter_cons_of_pos (by simp [hmove]), List.filter_nil, run_concat]
      exact ih.step hmove

/-- **Touches at any time.** Two runs of the same moves but for their touches have the same outcomes and
leave the same store, up to the times of the last use. -/
theorem outcomes_of_same_moves (hs : ∀ name, s.tasks name = none) {moves moves' : List Move}
    (h : moves.filter (fun move => !move.isTouch) = moves'.filter fun move => !move.isTouch) :
    (run Memory.driver c moves s).outcomes.map Outcome.withoutUse =
        (run Memory.driver c moves' s).outcomes.map Outcome.withoutUse ∧
      (run Memory.driver c moves s).world.store.SameButUse
        (run Memory.driver c moves' s).world.store := by
  -- both are alike to the session that makes no touches at all
  have halike := alike_run (c := c) hs moves
  have halike' := alike_run (c := c) hs moves'
  rw [← h] at halike'
  exact ⟨halike.outcomes.trans halike'.outcomes.symm, halike.store.trans halike'.store.symm⟩

end Session

end AccessTokens
