import AccessTokens.Proofs.Service.Checking
import AccessTokens.Proofs.Service.Session
import AccessTokens.Proofs.Storage.Table
import AccessTokens.Storage.Memory

/-!
# Failing changes nothing

A call that a store answers with an error leaves the store as it was, and an operation of a client that
ends with an error leaves the store and the pending touches as they were. For the stores it is a matter
of order, every check comes before the first write, and they are careful (`Driver.IsCareful`): only an
answer that tells of a change leaves another state.

For the operations it is a matter of what was replied. An operation that fails has had no exchange that
changes anything (`Client.idle_of_error`): checking only looks, validating hands a touch over just before
it accepts, and the calls that store or revoke are the last ones, so that their failure is the failure of
the operation. This is said of conversations (`Program.Follows`), and therefore holds whether an operation
runs by itself or others work on the same store in between.
-/

namespace AccessTokens

open Time (Instant)
open Storage (Change Memory Database)

variable {σ : Type}

/-! ### Stores -/

namespace Storage

/-- The error that a call was answered with. A call that was answered otherwise has none. -/
def Call.error? : (c : Call) → c.Answer → Option StorageError
  | .store _, .error e | .findByDigest _, .error e | .findById _, .error e => some e
  | .revoke _, .error e | .touch _, .error e => some e
  | _, _ => none

theorem Change.ofAnswer?_of_error {c : Call} {a : c.Answer} {e : StorageError}
    (h : c.error? a = some e) (now : Instant) : Change.ofAnswer? c now a = none := by
  cases c <;> cases a <;> first | rfl | cases h

/-- A store stays as it was unless the answer tells of a change. This is asked of every state and every
call, also of those that are answered with an error. -/
def Driver.IsCareful (driver : Driver σ) : Prop :=
  ∀ c now s, Change.ofAnswer? c now (driver.answer c now s).1 = none →
    (driver.answer c now s).2 = s

theorem Memory.isCareful : driver.IsCareful := by
  intro c now m h
  cases c with
  | store r =>
    change Change.ofAnswer? (.store r) now (m.store r).1 = none at h
    change (m.store r).2 = m
    rw [store] at h ⊢
    -- each of the checks may refuse, and nothing is written before the last one
    by_cases hd : m.byDigest.contains r.digest
    · rw [if_pos hd]
    by_cases hneg : r.id < 0
    · rw [if_neg hd, if_pos hneg]
    by_cases hi : r.id ≠ 0 ∧ m.byId.contains r.id
    · rw [if_neg hd, if_neg hneg, if_pos hi]
    rw [if_neg hd, if_neg hneg, if_neg hi] at h ⊢
    dsimp only at h ⊢
    by_cases hmax : (if r.id = 0 then m.nextId else r.id) = Int64.maxValue
    · rw [if_pos hmax]
    · rw [if_neg hmax] at h
      cases h
  | findByDigest d => rfl
  | findById i => rfl
  | revoke d =>
    change Change.ofAnswer? (.revoke d) now (m.revoke d).1 = none at h
    change (m.revoke d).2 = m
    rw [revoke] at h ⊢
    cases hd : m.byDigest[d]? with
    | none => rfl
    | some id =>
      rw [hd] at h
      cases h
  | touch i =>
    change Change.ofAnswer? (.touch i) now (m.touch i now).1 = none at h
    change (m.touch i now).2 = m
    rw [touch] at h ⊢
    cases hi : m.byId[i]? with
    | none => rfl
    | some r =>
      rw [hi] at h
      cases h

theorem Database.isCareful : driver.IsCareful := by
  intro c now d h
  cases c with
  | store r =>
    change Change.ofAnswer? (.store r) now (d.store r).1 = none at h
    change (d.store r).2 = d
    by_cases hneg : r.id < 0
    · rw [store, if_pos hneg]
    rcases d with ⟨_ | t⟩
    · rw [store, if_neg hneg]
    · -- the table takes the row or it does not
      cases hput : t.insert (if r.id = 0 then none else some r.id) (Row.ofRecord r) with
      | error why => rw [store_of_refused hneg hput]
      | ok put =>
        rw [store_of_inserted hneg hput] at h
        cases h
  | findByDigest g => rfl
  | findById i => rfl
  | revoke g =>
    change Change.ofAnswer? (.revoke g) now (d.revoke g).1 = none at h
    change (d.revoke g).2 = d
    rw [revoke] at h ⊢
    rcases d with ⟨_ | t⟩
    · rfl
    dsimp only at h ⊢
    by_cases hg : (t.find? g).isSome
    · rw [if_pos hg] at h
      cases h
    · rw [if_neg hg]
  | touch i =>
    change Change.ofAnswer? (.touch i) now (d.touch i now).1 = none at h
    change (d.touch i now).2 = d
    rw [touch] at h ⊢
    rcases d with ⟨_ | t⟩
    · rfl
    dsimp only at h ⊢
    by_cases hi : t.rows.contains i
    · rw [if_pos hi] at h
      cases h
    · rw [if_neg hi]

end Storage

/-! ### Exchanges -/

namespace Exchange

/-- An exchange that tells of no change of a store and hands over no touch. Warnings are allowed, and so are
lookups and calls that were refused. -/
def IsIdle : Exchange → Prop
  | ⟨.store c, a⟩ => ∀ now, Change.ofAnswer? c now a = none
  | ⟨.touchLater _, _⟩ => False
  | _ => True

/-- In whatever world the request gets this reply, its store and the touches that are pending are
afterwards what they were before. -/
def LeavesAlone (driver : Storage.Driver σ) (x : Exchange) : Prop :=
  ∀ (w : World σ) (o : Occasion) (n : Nat), (w.reply driver o n x.request).1 = x.reply →
    (w.reply driver o n x.request).2.store = w.store ∧
      (w.reply driver o n x.request).2.pending = w.pending

theorem IsIdle.leavesAlone {driver : Storage.Driver σ} (hd : driver.IsCareful) {x : Exchange}
    (hx : x.IsIdle) : x.LeavesAlone driver := by
  intro w o n hreply
  rcases x with ⟨c | _ | _ | id | _ | _, a⟩
  case store =>
    have hnone : Change.ofAnswer? c (o.clock n) (driver.answer c (o.clock n) w.store).1 = none := by
      change (driver.answer c (o.clock n) w.store).1 = a at hreply
      rw [hreply]
      exact hx (o.clock n)
    exact ⟨hd c (o.clock n) w.store hnone, rfl⟩
  case touchLater => exact hx.elim
  all_goals exact ⟨rfl, rfl⟩

theorem IsAside.isIdle {x : Exchange} (hx : x.IsAside) : x.IsIdle := by
  obtain ⟨hcall, htouch⟩ := hx
  rcases x with ⟨_ | _ | _ | _ | _ | _, _⟩
  case store => cases hcall
  case touchLater => cases htouch
  all_goals trivial

theorem idle_of_asides {xs : List Exchange} (h : ∀ x ∈ xs, x.IsAside) : ∀ x ∈ xs, x.IsIdle :=
  fun x hx => (h x hx).isIdle

/-- A program that is done has no exchanges. -/
theorem idle_of_done {α : Type} {a b : α} {xs : List Exchange}
    (h : (Program.done a).Follows xs b) : ∀ x ∈ xs, x.IsIdle := by
  obtain ⟨rfl, -⟩ := h.of_done
  simp

end Exchange

/-- A run whose every exchange leaves the store and the pending touches alone leaves them alone. Along the
requests of the program: each reply leaves both as they were, and the rest starts from there. -/
theorem World.alone_runFrom {α : Type} {driver : Storage.Driver σ} {o : Occasion} {n : Nat}
    {p : Program α} {w : World σ}
    (h : ∀ x ∈ w.conversation driver o n p, x.LeavesAlone driver) :
    (w.runFrom driver o n p).2.store = w.store ∧
      (w.runFrom driver o n p).2.pending = w.pending := by
  -- along the program: its first exchange left the world alone, and the rest goes on from there
  induction p generalizing n w with
  | done a => exact ⟨rfl, rfl⟩
  | ask q next ih =>
    rw [conversation_ask] at h
    obtain ⟨hstore, hpending⟩ := h _ List.mem_cons_self w o n rfl
    obtain ⟨hstore', hpending'⟩ := ih _ fun x hx => h x (List.mem_cons_of_mem _ hx)
    exact ⟨hstore'.trans hstore, hpending'.trans hpending⟩

/-! ### Operations -/

open Exchange

namespace Service

variable (s : Service)

/-- Checking changes nothing, whatever it comes to. Its one call of the store is a lookup, which tells of no
change however it is answered. -/
theorem idle_inspect {raw : String} {xs : List Exchange} {a : Except ServiceError Record}
    (hxs : (s.inspect raw).run.Follows xs a) : ∀ x ∈ xs, x.IsIdle := by
  cases hs : s.connected with
  | false =>
    rw [inspect_of_unconnected hs] at hxs
    exact idle_of_done hxs
  | true =>
    cases hraw : PlainToken.parse raw with
    | error e => exact idle_of_asides (asked_inspect_malformed hs hraw hxs)
    | ok token =>
      obtain ⟨found, ys, rfl, hys⟩ := asked_inspect hs hraw hxs
      -- a lookup tells of no change, whatever it is answered with
      have hfind : Exchange.IsIdle ⟨.store (.findByDigest (Secret.digest token.secret)), found⟩ := by
        intro now
        cases found <;> rfl
      exact List.forall_mem_cons.2 ⟨hfind, idle_of_asides hys⟩

variable {s} {xs : List Exchange} {e : ServiceError}

theorem idle_validate {raw : String} (hxs : (s.validate raw).run.Follows xs (.error e)) :
    ∀ x ∈ xs, x.IsIdle := by
  rw [validate_eq] at hxs
  obtain ⟨ys, a, zs, rfl, hys, hzs⟩ := hxs.of_bind
  refine List.forall_mem_append.2 ⟨s.idle_inspect hys, ?_⟩
  cases a with
  | error _ =>
    exact idle_of_done hzs
  | ok record =>
    -- once the touch is handed over, the token is accepted
    obtain ⟨_, ts, -, hts⟩ := hzs.of_ask
    cases hts

theorem idle_revoke {raw : String} (hxs : (s.revoke raw).run.Follows xs (.error e)) :
    ∀ x ∈ xs, x.IsIdle := by
  rw [revoke_eq] at hxs
  obtain ⟨ys, a, zs, rfl, hys, hzs⟩ := hxs.of_bind
  refine List.forall_mem_append.2 ⟨s.idle_inspect hys, ?_⟩
  cases a with
  | error _ =>
    exact idle_of_done hzs
  | ok record =>
    obtain ⟨answer, rfl, hanswer⟩ := hzs.of_last
    -- the operation ends as the store answered
    cases answer with
    | error _ => exact List.forall_mem_singleton.2 fun _ => rfl
    | ok _ => cases hanswer

theorem idle_keeping {secret : String} {record : Record}
    (hxs : (keeping secret record).run.Follows xs (.error e)) : ∀ x ∈ xs, x.IsIdle := by
  rw [keeping_eq] at hxs
  obtain ⟨answer, ys, rfl, hys⟩ := hxs.of_ask
  cases answer with
  | error _ =>
    obtain ⟨rfl, -⟩ := hys.of_done
    exact List.forall_mem_singleton.2 fun _ => rfl
  | ok _ => cases hys

theorem idle_issue {o : IssueOptions} (hxs : (s.issue o).run.Follows xs (.error e)) :
    ∀ x ∈ xs, x.IsIdle := by
  cases hs : s.connected with
  | false =>
    rw [issue_of_unconnected hs] at hxs
    exact idle_of_done hxs
  | true =>
    cases ho : o.check with
    | error _ =>
      rw [issue_of_refused hs ho] at hxs
      exact idle_of_done hxs
    | ok _ =>
      rw [issue_of_accepted hs ho] at hxs
      -- without bytes nothing comes next, and the question for them is not of the store
      obtain ⟨drawn, ys, rfl, hys⟩ := hxs.of_ask
      refine List.forall_mem_cons.2 ⟨trivial, ?_⟩
      cases drawn with
      | error _ => exact idle_of_done hys
      | ok bytes =>
        obtain ⟨now, zs, rfl, hzs⟩ := hys.of_ask
        -- nor is the clock, and after it the record is kept or not
        refine List.forall_mem_cons.2 ⟨trivial, ?_⟩
        cases hexpiry : s.policy.expiryFrom now with
        | error _ =>
          rw [hexpiry, afterClock_error] at hzs
          exact idle_of_done hzs
        | ok expiry =>
          rw [hexpiry, afterClock_ok] at hzs
          exact idle_keeping hzs

end Service

/-- **An operation that fails has changed nothing.** The only change that it could have made comes with its
last request, and when that one is refused nothing is told of it. -/
theorem Client.idle_of_error {c : Client} {op : Operation} {xs : List Exchange} {e : ServiceError}
    (hxs : (c.perform op).Follows xs (.error e)) : ∀ x ∈ xs, x.IsIdle := by
  -- the question for the signal comes before each of the four, and changes nothing
  have hclient {α : Type} {a : Action α} {xs : List Exchange}
      (hxs : (c.unlessCancelled a).run.Follows xs (.error e))
      (ha : ∀ ys, a.run.Follows ys (.error e) → ∀ x ∈ ys, x.IsIdle) : ∀ x ∈ xs, x.IsIdle := by
    rw [unlessCancelled_eq] at hxs
    obtain ⟨given, ys, rfl, hys⟩ := hxs.of_ask
    refine List.forall_mem_cons.2 ⟨trivial, ?_⟩
    cases given with
    | true =>
      exact idle_of_done hys
    | false => exact ha ys hys
  cases op with
  | issue o => exact hclient hxs fun _ => Service.idle_issue
  | validate raw => exact hclient hxs fun _ => Service.idle_validate
  | inspect raw => exact hclient hxs fun _ => c.service.idle_inspect
  | revoke raw => exact hclient hxs fun _ => Service.idle_revoke

/-- Run by itself on a careful store, an operation that fails leaves the store and the pending touches
as they were. -/
theorem Client.alone_of_error {driver : Storage.Driver σ} (hd : driver.IsCareful) {c : Client}
    {op : Operation} {o : Occasion} {w : World σ} {e : ServiceError}
    (h : (w.run driver o (c.perform op)).1 = .error e) :
    (w.run driver o (c.perform op)).2.store = w.store ∧
      (w.run driver o (c.perform op)).2.pending = w.pending := by
  have hfollows := World.follows_conversation driver o 0 (c.perform op) w
  change (w.runFrom driver o 0 (c.perform op)).1 = .error e at h
  rw [h] at hfollows
  exact World.alone_runFrom fun x hx => (Client.idle_of_error hfollows x hx).leavesAlone hd

/-- **Failing changes nothing.** For a store in memory and for a database, each in any state:

* a call that is answered with an error leaves the state as it was, with the ids that it would go on to
  choose;
* an operation of a client, run by itself, that ends with an error leaves the state of the store and
  the touches that are pending as they were;
* whatever is done by others between the requests of an operation that ends with an error, none of its
  own requests changes the store or hands over a touch. -/
theorem failing_changes_nothing (call : Storage.Call) (now : Instant) (c : Client) (op : Operation) :
    ((∀ (m : Memory) (e : StorageError),
        call.error? (Memory.driver.answer call now m).1 = some e →
          (Memory.driver.answer call now m).2 = m) ∧
      ∀ (d : Database) (e : StorageError),
        call.error? (Database.driver.answer call now d).1 = some e →
          (Database.driver.answer call now d).2 = d) ∧
    ((∀ (w : World Memory) (o : Occasion) (e : ServiceError),
        (w.run Memory.driver o (c.perform op)).1 = .error e →
          (w.run Memory.driver o (c.perform op)).2.store = w.store ∧
            (w.run Memory.driver o (c.perform op)).2.pending = w.pending) ∧
      ∀ (w : World Database) (o : Occasion) (e : ServiceError),
        (w.run Database.driver o (c.perform op)).1 = .error e →
          (w.run Database.driver o (c.perform op)).2.store = w.store ∧
            (w.run Database.driver o (c.perform op)).2.pending = w.pending) ∧
    ∀ (xs : List Exchange) (e : ServiceError), (c.perform op).Follows xs (.error e) →
      ∀ x ∈ xs, x.LeavesAlone Memory.driver ∧ x.LeavesAlone Database.driver := by
  refine ⟨⟨?_, ?_⟩, ⟨?_, ?_⟩, ?_⟩
  · intro m e he
    exact Memory.isCareful call now m (Change.ofAnswer?_of_error he now)
  · intro d e he
    exact Database.isCareful call now d (Change.ofAnswer?_of_error he now)
  · intro w o e he
    exact Client.alone_of_error Memory.isCareful he
  · intro w o e he
    exact Client.alone_of_error Database.isCareful he
  · intro xs e hxs x hx
    have hidle := Client.idle_of_error hxs x hx
    exact ⟨hidle.leavesAlone Memory.isCareful, hidle.leavesAlone Database.isCareful⟩

/-- A store in memory that has been given the greatest id but one, so that it has no id left to choose. -/
def exhaustedStore : Memory :=
  (Memory.driver.run
    [(.store { Record.fresh 1 "d" none [] .epoch none with id := Int64.maxValue - 1 }, .epoch)]
    Memory.empty).2

theorem failing_changes_nothing_exhausted :
    let w : World Memory := { store := exhaustedStore, pending := [7] }
    let o : Occasion := ⟨fun _ => .epoch, fun _ n => .ok (Vector.replicate n 0)⟩
    let program := (Client.mk {} 0).perform (.issue { userId := 1 })
    (w.run Memory.driver o program).1 = .error (.storage (.database "token id space exhausted")) ∧
      (w.run Memory.driver o program).2.store = exhaustedStore ∧
      (w.run Memory.driver o program).2.pending = [7] := by
  intro w o program
  have hfails : (w.run Memory.driver o program).1 =
      .error (.storage (.database "token id space exhausted")) := by
    change (_ : Except ServiceError IssuedToken) = _
    decide +kernel
  obtain ⟨-, ⟨halone, -⟩, -⟩ :=
    failing_changes_nothing (.touch 7) .epoch (Client.mk {} 0) (.issue { userId := 1 })
  exact ⟨hfails, halone w o _ hfails⟩

end AccessTokens
