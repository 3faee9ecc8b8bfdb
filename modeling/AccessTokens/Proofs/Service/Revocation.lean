import AccessTokens.Proofs.Service.Asking
import AccessTokens.Proofs.Storage.Alternating

/-!
# Revoking a token once

Revoking looks a record up and deletes it by its digest later, and anything may happen to the store in
between. Here revokes are run among each other, among the operations of clients and among arbitrary calls
of others on one store in memory (`Turn`). All of this is, for the store, a run of calls
(`Session.store_play`), and in every run a digest is stored and revoked in turn (`Memory.Alternates`).

What a revoke can do is bounded by its form (`Service.Revoking`): it looks until its last request, which
deletes the digest of the presented secret, and it succeeds by that request or not at all. So of two
revokes that have looked the same record up, the one that deletes first succeeds, and the other one is
told that the token is not found and changes nothing (`no_double_revocation`).
-/

namespace AccessTokens

open Time (Instant)
open Storage (Call Change Memory)

/-! ### The form of a revoke -/

/-- What is left of revoking a presented text, whatever the replies: it refuses, or looks before it goes
on, or makes its last request, which deletes the digest of the presented secret. -/
inductive Service.Revoking (raw : String) : Program (Except ServiceError Unit) → Prop
  | refused (e : ServiceError) : Revoking raw (.done (.error e))
  | looks {q : Request} {next : q.Reply → Program (Except ServiceError Unit)} (hq : q.IsLook)
    (h : ∀ r, Revoking raw (next r)) : Revoking raw (.ask q next)
  | deletes {token : PlainToken} (hraw : PlainToken.parse raw = .ok token) :
    Revoking raw (.ask (.store (.revoke (Secret.digest token.secret))) fun a =>
      .done (a.mapError ServiceError.ofStorage))

namespace Service

theorem revoking_bind {raw : String} {p : Program (Except ServiceError Record)}
    (hp : p.Asks Request.IsLook (Passes raw)) : Revoking raw (p >>= afterRevocable) := by
  -- along the check, which looks at every step and ends with a refusal or a record of the right digest
  induction hp with
  | @done a h =>
    cases a with
    | error e => exact .refused e
    | ok record =>
      obtain ⟨token, hraw, hd⟩ := h record rfl
      change Revoking raw (.ask (.store (.revoke record.digest)) _)
      rw [hd]
      exact .deletes hraw
  | ask hq _ ih => exact .looks hq ih

theorem revoking_revoke (s : Service) (raw : String) : Revoking raw (s.revoke raw).run := by
  rw [revoke_eq]
  exact revoking_bind (s.asks_inspect raw)

end Service

/-- **The two requests of a revoke.** It asks for the record of a digest, and if it is told of one that is
not expired at the next reading of the clock, it goes on to delete that digest. -/
theorem Service.revoke_of_wellFormed {s : Service} (hs : s.connected = true) {raw : String}
    {token : PlainToken} (hraw : PlainToken.parse raw = .ok token) :
    ∃ next, (s.revoke raw).run = .ask (.store (.findByDigest (Secret.digest token.secret))) next ∧
      ∀ record : Record, record.digest = Secret.digest token.secret →
        ∃ next', next (.ok record) = .ask .clock next' ∧
          ∀ now, record.isExpiredAt now = false →
            ∃ last, next' now = .ask (.store (.revoke (Secret.digest token.secret))) last := by
  rw [revoke_eq, inspect_of_wellFormed hs hraw]
  refine ⟨_, rfl, fun record hd => ⟨fun now => afterReading record now >>= afterRevocable, ?_, ?_⟩⟩
  · rw [afterLookup, checkRecord_of_eq hd]
    rfl
  · intro now hlive
    beta_reduce
    rw [afterReading_of_live hlive, ← hd]
    exact ⟨_, rfl⟩

/-- An operation that revokes has the form of a revoke. -/
def Task.IsRevoking : Task → Prop
  | ⟨.revoke raw, rest⟩ => Service.Revoking raw rest
  | _ => True

theorem Client.isRevoking_perform (c : Client) (op : Operation) :
    Task.IsRevoking ⟨op, c.perform op⟩ := by
  cases op with
  | revoke raw =>
    change Service.Revoking raw (c.perform (.revoke raw))
    -- asking for the signal is a look, and a given signal is a refusal
    rw [Client.perform_eq]
    refine .looks trivial fun given => ?_
    cases given with
    | true => exact .refused _
    | false => exact c.service.revoking_revoke raw
  | _ => trivial

/-- Whatever the reply, an operation that revokes keeps its form as long as it is under way. The form is
kept by every reply of any store, so it needs nothing of the session but the operation. -/
theorem Task.IsRevoking.next {op : Operation} {q : Request}
    {next : q.Reply → Program (Except ServiceError op.Result)}
    (h : Task.IsRevoking ⟨op, .ask q next⟩) (r : q.Reply) (task : Task)
    (htask : Task.ofRest? op (next r) = some task) : task.IsRevoking := by
  have heq := Task.eq_of_ofRest? htask
  cases op with
  | revoke raw =>
    cases h with
    -- a delete is the last request, and nothing is left under way after it
    | looks hq hnext => exact heq ▸ hnext r
    | deletes hraw => cases htask
  | _ => exact heq ▸ trivial

/-! ### Turns -/

/-- What may happen next to a store from which tokens are revoked. -/
inductive Turn
  /-- A client is started or moved on, a touch is made, or a signal is given. -/
  | move (m : Move)
  /-- Revoking is started under a name, without a client and its signal. -/
  | revoke (name : Nat) (raw : String)
  /-- Somebody else calls the store. -/
  | call (x : Call) (now : Instant)

namespace Session

variable {σ : Type} (driver : Storage.Driver σ) (c : Client) (s : Session σ)

/-- Takes a turn. A call of somebody else goes to the store as it is, and has no name and no outcome. -/
def turn : Turn → Session σ
  | .move m => s.step driver c m
  | .revoke name raw => s.advance name (.revoke raw) (c.service.revoke raw).run s.world
  | .call x now => { s with world := (s.world.call driver now x).2 }

/-- The outcomes that a turn adds. A call of somebody else adds none, though it may revoke a digest. -/
def turnAnswers (t : Turn) : List Outcome := (s.turn driver c t).outcomes.drop s.outcomes.length

/-- The calls of the store that a turn makes, which is one at most: the request of an operation if it is
one of the store, the touch that is made, or the call of somebody else. -/
def calls : Turn → List (Call × Instant)
  | .move (.proceed name now random) =>
    match s.exchange? driver (.proceed name now random) with
    | some ⟨.store x, _⟩ => [(x, now)]
    | _ => []
  | .move (.touch n now) => (s.world.pending[n]?.map fun id => (.touch id, now)).toList
  | .move _ | .revoke _ _ => []
  | .call x now => [(x, now)]

/-- Takes the turns of a list. -/
def play (turns : List Turn) : Session σ := turns.foldl (turn driver c) s

/-- The calls of the store that the turns of a list make. A turn makes at most one, in the state that the
turns before it have left. -/
def asked (s : Session σ) : List Turn → List (Call × Instant)
  | [] => []
  | t :: turns => s.calls driver t ++ asked (s.turn driver c t) turns

theorem store_turn (t : Turn) :
    (s.turn driver c t).world.store = (driver.run (s.calls driver t) s.world.store).2 := by
  cases t with
  -- only touches, requests of operations and the calls of others reach the store
  | revoke name raw =>
    rw [turn, advance_eq]
    rfl
  | call x now => rfl
  | move m =>
    cases m with
    | start name signal op => rfl
    | cancel signal => rfl
    | touch n now =>
      change (s.world.touch driver now n).store = _
      rw [World.touch, calls]
      cases s.world.pending[n]? with
      | none => rfl
      | some id => rfl
    | proceed name now random =>
      change (s.step driver c _).world.store = _
      rcases proceed_cases driver c s name now random with
        ⟨op, q, next, htask⟩ | ⟨hstep, hexchange, -⟩
      · rw [step_proceed htask, advance_eq, calls, exchange?_proceed htask]
        cases q <;> rfl
      · rw [hstep, calls, hexchange]
        rfl

/-- **For the store, turns are a run of calls**, so that what holds after every run of calls holds after
every play of turns, however the requests of the operations lie among each other. -/
theorem store_play (turns : List Turn) :
    (s.play driver c turns).world.store =
      (driver.run (s.asked driver c turns) s.world.store).2 := by
  -- turn by turn, since what a later turn asks depends on the session that the first one leaves
  induction turns generalizing s with
  | nil => rfl
  | cons t turns ih =>
    rw [asked, Storage.Driver.run_append, ← store_turn]
    exact ih _

variable {driver c s}

/-- Every revoke under way has the form of a revoke. It starts with this form, whoever starts it, and each
of its requests keeps the form. -/
theorem revoking_play (hs : ∀ name task, s.tasks name = some task → task.IsRevoking)
    (turns : List Turn) :
    ∀ name task, (s.play driver c turns).tasks name = some task → task.IsRevoking := by
  induction turns generalizing s with
  | nil => exact hs
  | cons t turns ih =>
    refine ih ?_
    cases t with
    | move m =>
      exact tasks_step (fun signal op => (c.observing signal).isRevoking_perform op)
        (fun h r => h.next r) hs m
    | revoke name raw =>
      refine tasks_advance hs fun task htask => ?_
      rw [Task.eq_of_ofRest? htask]
      exact c.service.revoking_revoke raw
    | call x now => exact hs

end Session

/-! ### What a revoke does to the store -/

namespace Session

variable {c : Client} {s : Session Memory} {name : Nat} {raw : String}

/-- **A revoke that deletes** asks for the digest of the presented secret, answers what the store answers,
and leaves everything else as it was. -/
theorem turn_deletes {d : String} {next : _ → Program (Except ServiceError Unit)}
    (htask : s.tasks name = some ⟨.revoke raw, .ask (.store (.revoke d)) next⟩)
    (hrev : Service.Revoking raw (.ask (.store (.revoke d)) next)) (now : Instant)
    (random : (count : Nat) → Drawn count) :
    (∃ token, PlainToken.parse raw = .ok token ∧ d = Secret.digest token.secret) ∧
      s.calls Memory.driver (.move (.proceed name now random)) = [(.revoke d, now)] ∧
      s.turnAnswers Memory.driver c (.move (.proceed name now random)) =
        [⟨name, .revoke raw, (s.world.store.revoke d).1.mapError ServiceError.ofStorage⟩] ∧
      (s.turn Memory.driver c (.move (.proceed name now random))).world =
        { s.world with store := (s.world.store.revoke d).2 } := by
  -- a delete is no look, so the form leaves the last request only
  cases hrev with
  | looks hq => cases hq
  | deletes hraw =>
    refine ⟨⟨_, hraw, rfl⟩, ?_, ?_, ?_⟩
    · rw [calls, exchange?_proceed htask]
    · exact answers_proceed (c := c) htask
    · rw [turn, step_proceed htask, advance_eq]
      rfl

/-- **A revoke succeeds by deleting.** The turn at which it is answered is the one at which its delete
reaches the store, and the digest is known to be the one of the presented secret. -/
theorem deletes_of_success (hs : ∀ name task, s.tasks name = some task → task.IsRevoking) {t : Turn}
    (h : ⟨name, .revoke raw, .ok ()⟩ ∈ s.turnAnswers Memory.driver c t) :
    ∃ d next now random, t = .move (.proceed name now random) ∧
      s.tasks name = some ⟨.revoke raw, .ask (.store (.revoke d)) next⟩ ∧
      Service.Revoking raw (.ask (.store (.revoke d)) next) := by
  cases t with
  | call x now =>
    change _ ∈ s.outcomes.drop s.outcomes.length at h
    rw [List.drop_length] at h
    cases h
  | revoke name' raw' =>
    -- what is over before it asks anything has been refused
    rw [turnAnswers, turn, advance_eq, List.drop_left] at h
    obtain ⟨result, hdone, heq⟩ := Outcome.mem_ofRest_iff.1 h
    cases heq
    have hrev := c.service.revoking_revoke raw
    rw [hdone] at hrev
    cases hrev
  | move m =>
    change _ ∈ s.answers Memory.driver c m at h
    -- of the moves only one of an operation answers
    cases m with
    | proceed name' now random =>
      rcases proceed_cases Memory.driver c s name' now random with
        ⟨op, q, next, htask⟩ | ⟨-, -, hanswers⟩
      · rw [answers_proceed htask] at h
        obtain ⟨result, hdone, heq⟩ := Outcome.mem_ofRest_iff.1 h
        cases heq
        have hrev : Service.Revoking raw (.ask q next) := hs name _ htask
        cases hrev with
        | looks hq hnext =>
          -- after looking it would go on as a revoke, which does not end with success
          have hrest := hnext (s.world.reply Memory.driver ⟨fun _ => now, fun _ => random⟩ 0 q).1
          rw [hdone] at hrest
          cases hrest
        | deletes hraw => exact ⟨_, _, now, random, rfl, htask, .deletes hraw⟩
      · rw [hanswers] at h
        cases h
    | _ =>
      rw [answers_of_outcomes_eq _ _ _ rfl] at h
      cases h

end Session

/-- What is left when a digest was revoked: one record is gone, the one that had the digest, and so is its
place in the index of digests. -/
theorem Storage.Memory.Sound.revoke_removes {m : Memory} (h : m.Sound) {d : String}
    (hd : m.byDigest.contains d = true) :
    (m.revoke d).1 = .ok () ∧ ∃ r : Record, m.byId[r.id]? = some r ∧ r.digest = d ∧
      (∀ i, (m.revoke d).2.byId[i]? = if r.id = i then none else m.byId[i]?) ∧
      (∀ d', (m.revoke d).2.byDigest[d']? = if d = d' then none else m.byDigest[d']?) ∧
      (m.revoke d).2.nextId = m.nextId := by
  rw [Std.ExtTreeMap.contains_eq_isSome_getElem?] at hd
  obtain ⟨id, hid⟩ := Option.isSome_iff_exists.1 hd
  obtain ⟨r, hr, hrd⟩ := h.byDigest_iff.1 hid
  have hrid : r.id = id := h.id_eq hr
  refine ⟨by rw [Memory.revoke_of_some d hid], r, hrid ▸ hr, hrd, fun i => ?_, fun d' => ?_, ?_⟩
  · rw [hrid]
    exact Memory.byId_revoked i hid
  · exact Memory.byDigest_revoked d' hid
  · exact m.nextId_revoked d

/-- **No double revocation.** Any number of revokes, of operations of clients and of calls of others take
turns on one store in memory, and the requests of each may lie anywhere among those of the others.

* A digest has been stored as often as it was revoked, and once more while a record with it is there.
* While a digest is not stored again, it is revoked once at most.
* A revoke that succeeds has just deleted one record, which has the digest of the presented secret, and
  left all others, and the counter, as they were.
* A revoke that has looked its record up goes on to delete the digest of the presented secret, and may
  do so at any later turn. If a record with it is still there then, it succeeds; otherwise it answers
  that the token is not found, and nothing changes. -/
theorem no_double_revocation (c : Client) (turns : List Turn) :
    let fresh : Session Memory := { world := { store := Memory.empty } }
    let s := fresh.play Memory.driver c turns
    let m := s.world.store
    let log := (Memory.driver.run (fresh.asked Memory.driver c turns) Memory.empty).1
    (∀ d, log.countP (Change.stores d) =
        log.count (.revoked d) + (if m.byDigest.contains d then 1 else 0) ∧
      (m.byDigest.contains d = true ↔ ∃ r : Record, m.byId[r.id]? = some r ∧ r.digest = d)) ∧
    (∀ d before between after, log = before ++ between ++ after →
      (∀ r : Record, .stored r ∈ between → r.digest ≠ d) → between.count (.revoked d) ≤ 1) ∧
    (∀ t name raw, ⟨name, .revoke raw, .ok ()⟩ ∈ s.turnAnswers Memory.driver c t →
      let m' := (s.turn Memory.driver c t).world.store
      ∃ (token : PlainToken) (r : Record),
        PlainToken.parse raw = .ok token ∧ r.digest = Secret.digest token.secret ∧
        m.byId[r.id]? = some r ∧
        (Memory.driver.run (s.calls Memory.driver t) m).1 = [.revoked r.digest] ∧
        (∀ i, m'.byId[i]? = if r.id = i then none else m.byId[i]?) ∧
        (∀ d, m'.byDigest[d]? = if r.digest = d then none else m.byDigest[d]?) ∧
        m'.nextId = m.nextId) ∧
    (c.service.connected = true → ∀ raw token, PlainToken.parse raw = .ok token →
      ∃ next, (c.service.revoke raw).run =
          .ask (.store (.findByDigest (Secret.digest token.secret))) next ∧
        ∀ record : Record, record.digest = Secret.digest token.secret →
          ∃ next', next (.ok record) = .ask .clock next' ∧
            ∀ now, record.isExpiredAt now = false →
              ∃ last, next' now = .ask (.store (.revoke (Secret.digest token.secret))) last) ∧
    ∀ name raw d next, s.tasks name = some ⟨.revoke raw, .ask (.store (.revoke d)) next⟩ →
      (∃ token, PlainToken.parse raw = .ok token ∧ d = Secret.digest token.secret) ∧
      ∀ now random,
        let t : Turn := .move (.proceed name now random)
        (m.byDigest.contains d = true →
          s.turnAnswers Memory.driver c t = [⟨name, .revoke raw, .ok ()⟩]) ∧
        (m.byDigest.contains d = false →
          s.turnAnswers Memory.driver c t = [⟨name, .revoke raw, .error .tokenNotFound⟩] ∧
            (s.turn Memory.driver c t).world = s.world) := by
  intro fresh s m log
  have hm : m = (Memory.driver.run (fresh.asked Memory.driver c turns) Memory.empty).2 :=
    fresh.store_play Memory.driver c turns
  -- two facts carry everything: stores and revokes alternate, and every revoke under way has its form
  have h : m.Alternates log := hm ▸ Memory.run_alternates _
  have htasks : ∀ name task, s.tasks name = some task → task.IsRevoking :=
    Session.revoking_play (by rintro _ _ ⟨⟩) turns
  refine ⟨fun d => ⟨h.countP_eq d, ?_⟩, ?_, ?_,
    fun hc raw token => Service.revoke_of_wellFormed hc, ?_⟩
  · rw [Std.ExtTreeMap.contains_eq_isSome_getElem?, Option.isSome_iff_exists]
    constructor
    -- the index of digests and the index of ids have the same records
    · rintro ⟨i, hi⟩
      obtain ⟨r, hr, hd⟩ := h.sound.byDigest_iff.1 hi
      exact ⟨r, h.sound.id_eq hr ▸ hr, hd⟩
    · rintro ⟨r, hr, hd⟩
      exact ⟨r.id, h.sound.byDigest_iff.2 ⟨r, hr, hd⟩⟩
  · intro d before between after hlog
    exact (hlog ▸ h.alternating d).count_revoked_le
  · intro t name raw hanswer m'
    obtain ⟨d, next, now, random, rfl, htask, hrev⟩ := Session.deletes_of_success htasks hanswer
    obtain ⟨⟨token, hraw, hd⟩, hcalls, hanswers, hworld⟩ :=
      Session.turn_deletes (c := c) htask hrev now random
    rw [hanswers, List.mem_singleton] at hanswer
    -- the store answered that it has revoked the digest, so a record with it was there
    have hthere : m.byDigest.contains d = true := by
      rw [Std.ExtTreeMap.contains_eq_isSome_getElem?]
      cases hid : m.byDigest[d]? with
      | some id => rfl
      | none =>
        rw [show s.world.store.revoke d = (.error .notFound, m) by rw [Memory.revoke, hid]] at hanswer
        cases hanswer
    obtain ⟨hok, r, hr, hrd, hbyId, hbyDigest, hnextId⟩ := h.sound.revoke_removes hthere
    have hm' : m' = (m.revoke d).2 := congrArg World.store hworld
    refine ⟨token, r, hraw, hrd.trans hd, hr, ?_, ?_, ?_, ?_⟩
    · rw [hcalls, hrd]
      change [] ++ (Change.ofAnswer? (.revoke d) now (m.revoke d).1).toList = _
      rw [hok]
      rfl
    · rw [hm']
      exact hbyId
    · rw [hm', hrd]
      exact hbyDigest
    · rw [hm']
      exact hnextId
  · intro name raw d next htask
    -- it has made its lookup, and the store as it is now decides, not as it was then
    have hrev : Service.Revoking raw (.ask (.store (.revoke d)) next) := htasks name _ htask
    refine ⟨?_, fun now random => ⟨fun hthere => ?_, fun hgone => ?_⟩⟩
    · exact (Session.turn_deletes (c := c) htask hrev .epoch fun _ => default).1
    · obtain ⟨-, -, hanswers, -⟩ := Session.turn_deletes (c := c) htask hrev now random
      rw [hanswers, show s.world.store = m from rfl, (h.sound.revoke_removes hthere).1]
      rfl
    · obtain ⟨-, -, hanswers, hworld⟩ := Session.turn_deletes (c := c) htask hrev now random
      have hmissing : s.world.store.revoke d = (.error .notFound, m) := by
        rw [Memory.revoke, Std.ExtTreeMap.getElem?_eq_none_of_contains_eq_false hgone]
      rw [hanswers, hworld, hmissing]
      exact ⟨rfl, rfl⟩

end AccessTokens
