import AccessTokens.Proofs.Service.Asking
import AccessTokens.Proofs.Service.Moves

/-!
# Which operations schedule touches

A validation asks for the touch of a record just before it ends with it, and that record is one that it
was told of (`Service.Validating`). No other operation asks for a touch, and none brings an id
(`Client.schedules_perform`). So at every request of an operation under way, a touch was handed over
exactly if a record passed, and it is the touch of that record (`Scheduled`).
-/

namespace AccessTokens

/-! ### What validations end with -/

/-- The record that passed, if an operation that validates ended with one. Inspecting ends with a record
too, but hands over no touch. -/
def Outcome.validated? : Outcome → Option Record
  | ⟨_, .validate _, .ok r⟩ => some r
  | _ => none

/-- A reply tells of a record that the store has. Only looking a digest up does: issuing tells of a record
that is new. -/
def Request.Tells : (q : Request) → q.Reply → Record → Prop
  | .store (.findByDigest _), a, r => a = .ok r
  | _, _, _ => False

namespace Service

/-- What is left of checking a text when some records are known: it looks, and ends with a refusal or with
a record that is known or was told of. -/
inductive Checking : (Record → Prop) → Program (Except ServiceError Record) → Prop
  | refused {K : Record → Prop} (e : ServiceError) : Checking K (.done (.error e))
  | passed {K : Record → Prop} {r : Record} (h : K r) : Checking K (.done (.ok r))
  | looks {K : Record → Prop} {q : Request} {next : q.Reply → Program (Except ServiceError Record)}
    (hq : q.IsLook) (h : ∀ a, Checking (fun r => K r ∨ q.Tells a r) (next a)) :
    Checking K (.ask q next)

/-- What is left of validating a text when some records are known: it looks, and ends with a refusal or by
handing over the touch of a record that is known or was told of. -/
inductive Validating : (Record → Prop) → Program (Except ServiceError Record) → Prop
  | refused {K : Record → Prop} (e : ServiceError) : Validating K (.done (.error e))
  | handsOver {K : Record → Prop} {r : Record} (h : K r) :
    Validating K (.ask (.touchLater r.id) fun _ => .done (.ok r))
  | looks {K : Record → Prop} {q : Request} {next : q.Reply → Program (Except ServiceError Record)}
    (hq : q.IsLook) (h : ∀ a, Validating (fun r => K r ∨ q.Tells a r) (next a)) :
    Validating K (.ask q next)

variable {K K' : Record → Prop}

/-- More may be known. What others have stored meanwhile does not take away from what a validation was told
of before. -/
theorem Validating.mono {p : Program (Except ServiceError Record)} (h : Validating K p)
    (hK : ∀ r, K r → K' r) : Validating K' p := by
  induction h generalizing K' with
  | refused e => exact .refused e
  | handsOver h => exact .handsOver (hK _ h)
  | looks hq _ ih => exact .looks hq fun a => ih a fun r => Or.imp (hK r) id

theorem Refuses.checking {p : Program (Except ServiceError Record)} (h : Refuses p) :
    Checking K p := by
  cases h with
  | silently e => exact .refused e
  | warning w e => exact .looks trivial fun _ => .refused e

theorem checking_inspect (s : Service) (raw : String) : Checking K (s.inspect raw).run := by
  -- the way of a text through the check: each step refuses or leaves one way to go on
  rcases s.inspect_cases raw with h | ⟨token, -, heq⟩
  · exact h.checking
  rw [heq]
  refine .looks trivial fun a => ?_
  rcases afterLookup_cases token a with h | ⟨record, hrecord, -, heq⟩
  · exact h.checking
  rw [heq]
  refine .looks trivial fun now => ?_
  rcases afterReading_cases record now with h | heq
  · exact h.checking
  rw [heq]
  -- the lookup told of the record, and reading the clock tells of none
  exact .passed (.inl (.inr hrecord))

/-- Validating goes on with the touch of the record that passed the check. -/
theorem Checking.validating {p : Program (Except ServiceError Record)} (h : Checking K p) :
    Validating K (p >>= afterValidated) := by
  -- what ended with a record hands its touch over instead, and what looked looks
  induction h with
  | refused e => exact .refused e
  | passed h => exact .handsOver h
  | looks hq _ ih => exact .looks hq ih

end Service

/-! ### What operations schedule -/

/-- A request that hands over no touch and makes none, and brings no id. Every request of every operation is
of this kind, but the one that hands a touch over. -/
def Request.IsPlain : Request → Prop
  | .store (.store r) => r.id = 0
  | .store (.touch _) | .touchLater _ => False
  | _ => True

theorem Request.IsLook.isPlain {q : Request} (h : q.IsLook) : q.IsPlain := by
  -- looks are among the plain requests; the five calls of a store come first here
  rcases q with (_ | _ | _ | _ | _) | _ | _ | _ | _ | _
  all_goals first | exact h | trivial

/-- An operation under way hands a touch over only at the end of a validation, of a record that is known
or was told of, and brings no id. -/
def Task.Schedules (K : Record → Prop) : Task → Prop
  | ⟨.validate _, rest⟩ => Service.Validating K rest
  | ⟨_, rest⟩ => rest.Asks Request.IsPlain fun _ => True

namespace Service

variable (s : Service)

theorem asks_plain_inspect (raw : String) :
    (s.inspect raw).run.Asks Request.IsPlain fun _ => True :=
  (s.asks_inspect raw).mono (fun _ => Request.IsLook.isPlain) fun _ _ => trivial

theorem asks_plain_revoke (raw : String) :
    (s.revoke raw).run.Asks Request.IsPlain fun _ => True := by
  rw [revoke_eq]
  refine (s.asks_plain_inspect raw).bind fun a _ => ?_
  cases a with
  | error e => exact .done trivial
  | ok record => exact .ask trivial fun _ => .done trivial

theorem asks_plain_issue (o : IssueOptions) :
    (s.issue o).run.Asks Request.IsPlain fun _ => True := by
  rcases s.issue_cases o with ⟨e, heq⟩ | heq
  · rw [heq]
    exact .done trivial
  rw [heq]
  refine .ask trivial fun drawn => ?_
  cases drawn with
  | error cause => exact .done trivial
  | ok bytes =>
    refine .ask trivial fun now => ?_
    cases s.policy.expiryFrom now with
    | error e =>
      rw [afterClock_error]
      exact .done trivial
    | ok expiry =>
      rw [afterClock_ok, keeping_eq]
      -- a fresh record has the id zero
      refine .ask rfl fun a => ?_
      cases a <;> exact .done trivial

end Service

/-- **What operations schedule.** Whatever is known, an operation that starts schedules touches of known
records at most, since all that it can hand over is what it will be told of. -/
theorem Client.schedules_perform (c : Client) (op : Operation) (K : Record → Prop) :
    Task.Schedules K ⟨op, c.perform op⟩ := by
  have hplain {op : Operation} (h : (c.service.perform op).Asks Request.IsPlain fun _ => True) :
      (c.perform op).Asks Request.IsPlain fun _ => True := by
    rw [perform_eq]
    refine .ask trivial fun given => ?_
    cases given with
    | true => exact .done trivial
    | false => exact h
  cases op with
  | issue o => exact hplain (c.service.asks_plain_issue o)
  | inspect raw => exact hplain (c.service.asks_plain_inspect raw)
  | revoke raw => exact hplain (c.service.asks_plain_revoke raw)
  | validate raw =>
    change Service.Validating K (c.perform (.validate raw))
    rw [perform_eq]
    refine .looks trivial fun given => ?_
    cases given with
    | true => exact .refused _
    | false =>
      change Service.Validating _ (c.service.validate raw).run
      rw [Service.validate_eq]
      exact (c.service.checking_inspect raw).validating

theorem Task.Schedules.mono {K K' : Record → Prop} {task : Task} (h : task.Schedules K)
    (hK : ∀ r, K r → K' r) : task.Schedules K' := by
  obtain ⟨op, rest⟩ := task
  cases op with
  | validate raw => exact Service.Validating.mono h hK
  | _ => exact h

/-- **One request of an operation**, that was replied to and left a rest. A touch was handed over exactly
if the operation ended with a record that passed, and it is the touch of that record, which was known. No
id was brought, and what is left schedules what was known or told of. -/
structure Scheduled (K : Record → Prop) (name : Nat) (op : Operation) (q : Request) (a : q.Reply)
    (rest : Program (Except ServiceError op.Result)) : Prop where
  handed : ((Outcome.ofRest name op rest).filterMap Outcome.validated?).map Record.id =
    (Exchange.handedOver? ⟨q, a⟩).toList
  known : ∀ v ∈ (Outcome.ofRest name op rest).filterMap Outcome.validated?, K v
  brings : ∀ r, q = .store (.store r) → r.id = 0
  left : ∀ task, Task.ofRest? op rest = some task → task.Schedules fun r => K r ∨ q.Tells a r

section Scheduled

variable {K : Record → Prop} {q : Request} {a : q.Reply} {name : Nat}

theorem handedOver?_of_plain (h : q.IsPlain) : Exchange.handedOver? ⟨q, a⟩ = none := by
  cases q with
  | touchLater id => cases h
  | _ => rfl

theorem Request.IsPlain.brings (h : q.IsPlain) : ∀ r, q = .store (.store r) → r.id = 0 := by
  rintro r rfl
  exact h

/-- An operation that ends with no record that passed, after a request that hands over no touch. For such a
request there is nothing to compare: neither side gains anything. -/
theorem Scheduled.of_plain {op : Operation} {rest : Program (Except ServiceError op.Result)}
    (hq : q.IsPlain) (hrest : (Outcome.ofRest name op rest).filterMap Outcome.validated? = [])
    (hleft : Task.Schedules (fun r => K r ∨ q.Tells a r) ⟨op, rest⟩) :
    Scheduled K name op q a rest where
  handed := by
    rw [hrest, handedOver?_of_plain hq]
    rfl
  known := by simp [hrest]
  brings := hq.brings
  left task htask := Task.eq_of_ofRest? htask ▸ hleft

theorem Scheduled.of_validating {raw : String}
    {next : q.Reply → Program (Except ServiceError Record)}
    (h : Service.Validating K (.ask q next)) (a : q.Reply) :
    Scheduled K name (.validate raw) q a (next a) := by
  cases h with
  | handsOver hr =>
    refine ⟨rfl, fun v hv => ?_, by rintro _ ⟨⟩, by rintro _ ⟨⟩⟩
    rw [List.mem_singleton.1 hv]
    exact hr
  | looks hq hnext =>
    have hrest := hnext a
    -- after a look it has not ended with a record, or it would have handed a touch over
    refine .of_plain hq.isPlain ?_ hrest
    generalize next a = rest at hrest
    cases hrest <;> rfl

theorem Scheduled.of_asks {op : Operation} {next : q.Reply → Program (Except ServiceError op.Result)}
    (hop : ∀ rest, (Outcome.ofRest name op rest).filterMap Outcome.validated? = [])
    (h : (Program.ask q next).Asks Request.IsPlain fun _ => True) (a : q.Reply)
    (hback : ∀ K, (next a).Asks Request.IsPlain (fun _ => True) → Task.Schedules K ⟨op, next a⟩) :
    Scheduled K name op q a (next a) := by
  cases h with
  | ask hq hnext => exact .of_plain hq (hop _) (hback _ (hnext a))

/-- An operation that makes its request hands over what it schedules, and no more. A touch is handed over
with the very request after which the operation ends with its record. -/
theorem Task.Schedules.next {op : Operation} {next : q.Reply → Program (Except ServiceError op.Result)}
    (h : Task.Schedules K ⟨op, .ask q next⟩) (a : q.Reply) (name : Nat) :
    Scheduled K name op q a (next a) := by
  cases op with
  | validate raw => exact .of_validating h a
  | _ => exact .of_asks (fun rest => by cases rest <;> rfl) h a fun _ h => h

end Scheduled

end AccessTokens
