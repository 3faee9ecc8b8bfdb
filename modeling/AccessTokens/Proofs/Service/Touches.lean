import AccessTokens.Proofs.Service.Timing
import AccessTokens.Proofs.Service.Scheduling
import AccessTokens.Proofs.Service.Verdict
import Mathlib.Data.List.Nodup

/-!
# What touches do

Every validation that passes hands over a touch of the record that passed, and the touch is made at some
later time or never. By then the record may be gone, but its id belongs to no other one, since clients
bring no ids and the store gives none twice. So a touch marks the record whose validation handed it over,
or it does nothing (`touches_are_harmless`).

The invariant of a session (`Session.Orderly`) says that the pending touches are some of those that were
handed over, that what was validated had been stored, and that no two records were stored under one id.
-/

namespace AccessTokens

open Time (Instant)
open Storage (Change KeptSince Memory storedIds)

/-! ### Ids in a history -/

namespace Storage

section

variable {before since : List Change} {r r' : Record}
  (h : (storedIds (before ++ .stored r :: since)).Nodup)

include h

/-- Where ids tell stored records apart, no other one was stored under the id of a record. -/
theorem id_ne_of_nodup (hr' : .stored r' ∈ before ++ since) : r'.id ≠ r.id := by
  have hid : Change.storedId? (.stored r) = some r.id := rfl
  rw [storedIds, List.filterMap_append, List.filterMap_cons_some hid, List.nodup_middle,
    List.nodup_cons, ← List.filterMap_append] at h
  exact fun heq => h.1 (mem_storedIds_iff.2 ⟨r', hr', heq⟩)

theorem eq_of_nodup (hr' : .stored r' ∈ before ++ .stored r :: since) (hid : r'.id = r.id) :
    r' = r := by
  rcases List.mem_cons.1 (List.perm_middle.mem_iff.1 hr') with hr' | hr'
  · cases hr'
    rfl
  · exact absurd hid (id_ne_of_nodup h hr')

/-- So the record was stored at one place in the history. -/
theorem since_eq_of_nodup {before' since' : List Change}
    (heq : before ++ .stored r :: since = before' ++ .stored r :: since') : since = since' := by
  -- it would have been stored under its own id twice
  have honly : .stored r ∉ before ++ since := fun hr => id_ne_of_nodup h hr rfl
  rw [List.mem_append, not_or] at honly
  exact ((List.append_cons_inj_of_notMem honly.1 honly.2).1 heq).2.2

end

/-- Ids go on to tell stored records apart if a record is stored under an id that none had. Any other change
adds no id to the history. -/
theorem nodup_storedIds_append {log : List Change} {x? : Option Change} (h : (storedIds log).Nodup)
    (hnew : ∀ r, x? = some (.stored r) → r.id ∉ storedIds log) :
    (storedIds (log ++ x?.toList)).Nodup := by
  rw [storedIds_append]
  cases hx : x?.bind Change.storedId? with
  | none =>
    rw [Option.toList_none, List.append_nil]
    exact h
  | some i =>
    rw [Option.toList_some, ← List.concat_eq_append, List.nodup_concat]
    obtain ⟨x, rfl, hid⟩ := Option.bind_eq_some_iff.1 hx
    cases x <;> cases hid
    exact ⟨hnew _ rfl, h⟩

end Storage

/-! ### The invariant of a session -/

/-- The records that passed, oldest first. -/
def Session.validated {σ : Type} (s : Session σ) : List Record :=
  s.outcomes.filterMap Outcome.validated?

/-- The history stored a record, up to the time of its last use, which touches have changed since. This is
all that a lookup could tell of it: the record may have been revoked in the meantime. -/
def Known (log : List Change) (v : Record) : Prop :=
  ∃ r, .stored r ∈ log ∧ r.withoutUse = v.withoutUse

theorem Known.append {log : List Change} {v : Record} (h : Known log v) (more : List Change) :
    Known (log ++ more) v :=
  h.imp fun _ => And.imp_left (List.mem_append_left more)

namespace World

variable {w : World Memory} {told : List Change}

/-- A store that remembers tells of records that were stored. What an operation is told of is therefore
known, and stays so when the record is revoked. -/
theorem known_reply (h : w.store.Remembers told) (o : Occasion) (n : Nat) (q : Request) (r : Record)
    (hr : q.Tells (w.reply Memory.driver o n q).1 r) : Known told r := by
  rcases q with (_ | digest | _ | _ | _) | _ | _ | _ | _ | _
  case store.findByDigest =>
    change w.store.findByDigest digest (o.clock n) = .ok r at hr
    -- only a lookup that was answered with a record tells of one, and the store has it from its history
    rcases h.findByDigest_cases digest (o.clock n) with
      ⟨e, heq, -⟩ | ⟨s, since, used, hk, -, heq⟩
    · rw [heq] at hr
      cases hr
    · rw [heq] at hr
      cases hr
      obtain ⟨before, rfl⟩ := hk.1
      exact ⟨s, by simp, rfl⟩
  all_goals cases hr

/-- A record that comes without an id is stored under one that was never used, not even by a record that is
gone. -/
theorem new_id (h : w.store.Remembers told) (o : Occasion) (n : Nat) {q : Request}
    (hq : ∀ r, q = .store (.store r) → r.id = 0) {x : Record}
    (hx : q.change? (w.reply Memory.driver o n q).1 = some (.stored x)) :
    x.id ∉ storedIds told := by
  intro hused
  obtain ⟨r, hr, hrx⟩ := Storage.mem_storedIds_iff.1 hused
  obtain ⟨log, hlog, rfl⟩ := h
  cases q with
  | store call =>
    rw [Request.change?_store call (o.clock n), Option.filter_eq_some_iff] at hx
    obtain ⟨r₀, rfl⟩ := (Change.call_of_ofAnswer? hx.1).1 x rfl
    obtain ⟨hx, -⟩ := hx
    change Change.ofAnswer? (.store r₀) (o.clock n) (w.store.store r₀).1 = some (.stored x) at hx
    -- a record that was refused tells of no change, and one that was stored has its id from the counter
    rcases hlog.sound.store_cases r₀ with ⟨e, he⟩ | ⟨id, hid, -, he⟩
    · rw [he] at hx
      cases hx
    · rw [he] at hx
      cases hx
      rw [if_pos (hq r₀ rfl)] at hid
      -- the id is that of the counter, which is above all stored ones
      have hlt := Storage.lt_idAfter_of_mem (List.mem_filter.1 hr).1
      rw [← hlog.nextId_eq, ← hid, hrx] at hlt
      exact absurd hlt (Int.lt_irrefl _)
  | _ => cases hx

end World

namespace Session

/-- The touches that are pending were handed over by validations that passed, what passed had been stored,
and ids tell stored records apart. Every operation under way schedules only what was stored. -/
structure Orderly (s : Session Memory) : Prop where
  faithful : s.Faithful
  pending : s.world.pending.Sublist (s.validated.map Record.id)
  known : ∀ v ∈ s.validated, Known s.history v
  ids : (storedIds s.history).Nodup
  schedules : ∀ name task, s.tasks name = some task → task.Schedules (Known s.history)

variable {s : Session Memory} {c : Client}

theorem Orderly.fresh : Orderly { world := { store := Memory.empty } } where
  faithful := ⟨Memory.Remembers.empty, by simp, by simp⟩
  pending := List.Sublist.refl _
  known := by rintro _ ⟨⟩
  ids := List.nodup_nil
  schedules := by rintro _ _ ⟨⟩

theorem validated_advance (name : Nat) {op : Operation}
    (rest : Program (Except ServiceError op.Result)) (w : World Memory) :
    (s.advance name op rest w).validated =
      s.validated ++ (Outcome.ofRest name op rest).filterMap Outcome.validated? := by
  rw [validated, advance_eq, List.filterMap_append]
  rfl

/-- An operation that has made its request leaves the session orderly, if its reply told of known records
only and what was stored with it has a new id. -/
theorem Orderly.advance (h : s.Orderly) {name : Nat} {op : Operation} {q : Request} {a : q.Reply}
    {rest : Program (Except ServiceError op.Result)} {w : World Memory}
    (hrest : Scheduled (Known s.history) name op q a rest)
    (hends : rest.Ends op.Tells (q.change? a)) (hfaithful : (s.advance name op rest w).Faithful)
    (hpending : w.pending = s.world.pending ++ (Exchange.handedOver? ⟨q, a⟩).toList)
    (hknown : ∀ r, q.Tells a r → Known s.history r)
    (hnew : ∀ r, q.change? a = some (.stored r) → r.id ∉ storedIds s.history) :
    (s.advance name op rest w).Orderly := by
  -- what the move adds to the history and to what was validated, and then part by part
  have hhistory := s.history_advance name hends w
  have hvalidated := s.validated_advance name rest w
  refine ⟨hfaithful, ?_, ?_, ?_, ?_⟩
  · -- a touch was handed over exactly if a record passed
    rw [hvalidated, List.map_append, hrest.handed, advance_eq]
    change w.pending.Sublist _
    rw [hpending]
    exact h.pending.append (List.Sublist.refl _)
  · rw [hvalidated, hhistory]
    intro v hv
    rcases List.mem_append.1 hv with hv | hv
    · exact (h.known v hv).append _
    · exact (hrest.known v hv).append _
  · rw [hhistory]
    exact Storage.nodup_storedIds_append h.ids hnew
  · -- the other operations may know more now, and this one what it was told of
    rw [hhistory]
    refine tasks_advance (fun name task htask => ?_) fun task htask => ?_
    · exact (h.schedules name task htask).mono fun r hr => hr.append _
    · exact (hrest.left task htask).mono fun r hr => (hr.elim id (hknown r)).append _

/-- **Every move keeps a session orderly.** A move that is no touch adds what it hands over, and a touch
takes one away. Neither forgets a record that has passed. -/
theorem Orderly.step (hc : c.service.connected = true) (h : s.Orderly) (move : Move) :
    (s.step Memory.driver c move).Orderly := by
  have hfaithful := h.faithful.step hc move
  cases move with
  | start name signal op =>
    refine ⟨hfaithful, h.pending, h.known, h.ids, tasks_update h.schedules name ?_⟩
    rintro task ⟨⟩
    exact (c.observing signal).schedules_perform op _
  | cancel signal => exact ⟨hfaithful, h.pending, h.known, h.ids, h.schedules⟩
  | touch n now =>
    refine ⟨hfaithful, ?_, h.known, h.ids, h.schedules⟩
    change (s.world.touch Memory.driver now n).pending.Sublist _
    rw [World.touch]
    split
    · exact h.pending
    -- the touch that was made is pending no more
    · exact (List.eraseIdx_sublist _ _).trans h.pending
  | proceed name now random =>
    rcases proceed_cases Memory.driver c s name now random with
      ⟨op, q, next, htask⟩ | ⟨hstep, -⟩
    · rw [step_proceed htask] at hfaithful ⊢
      have hends := h.faithful.tasks name _ htask
      have hscheduled := (h.schedules name _ htask).next
        (s.world.reply Memory.driver ⟨fun _ => now, fun _ => random⟩ 0 q).1 name
      -- the store replies in order, and its reply is all that the operation learns
      cases hends with
      | ask hnext =>
        exact h.advance hscheduled (hnext _ (World.orderly_reply h.faithful.store _ _ q)) hfaithful
          (World.pending_reply Memory.driver _ _ q s.world)
          (World.known_reply h.faithful.store _ _ q)
          fun x hx => World.new_id h.faithful.store _ _ hscheduled.brings hx
    · rw [hstep]
      exact h

theorem orderly_run (hc : c.service.connected = true) (moves : List Move) :
    (run Memory.driver c moves { world := { store := Memory.empty } }).Orderly :=
  run_induction Memory.driver c .fresh (fun _ move h => h.step hc move) moves

/-- **Validations hand touches over**, one each that passes, and nothing else does. They come at the end of
the pending ones, in the order of the outcomes. -/
theorem Orderly.handedOver (h : s.Orderly) {move : Move} (hmove : move.isTouch = false) :
    (s.step Memory.driver c move).world.pending = s.world.pending ++
      ((s.answers Memory.driver c move).filterMap Outcome.validated?).map Record.id := by
  cases move with
  | touch n now => cases hmove
  | proceed name now random =>
    rcases proceed_cases Memory.driver c s name now random with
      ⟨op, q, next, htask⟩ | ⟨hstep, -, hanswers⟩
    · have hscheduled := (h.schedules name _ htask).next
        (s.world.reply Memory.driver ⟨fun _ => now, fun _ => random⟩ 0 q).1 name
      rw [answers_proceed htask, hscheduled.handed, step_proceed htask, advance_eq]
      exact World.pending_reply Memory.driver _ _ q s.world
    · rw [hanswers, hstep]
      exact (List.append_nil _).symm
  | _ =>
    rw [answers_of_outcomes_eq _ _ _ rfl]
    exact (List.append_nil _).symm

/-- **A touch marks the record that passed**, or does nothing once that one was revoked. -/
theorem Orderly.touched (h : s.Orderly) {n : Nat} {id : Int64} (hn : s.world.pending[n]? = some id) :
    ∃ (r : Record) (before since : List Change), r.id = id ∧
      s.history = before ++ .stored r :: since ∧
      (∀ r', .stored r' ∈ before ++ since → r'.id ≠ id) ∧ (∃ v ∈ s.validated, v.id = id) ∧
      (∀ v ∈ s.validated, v.id = id → v.withoutUse = r.withoutUse) ∧
      if .revoked r.digest ∈ since then ∀ now, (s.world.store.touch id now).2 = s.world.store
      else ∃ used, s.world.store.byId[id]? = some { r with lastUsedAt := used } ∧
        ∀ now, (s.world.store.touch id now).2 = { s.world.store with
          byId := s.world.store.byId.insert id { r with lastUsedAt := some now } } := by
  have hid := h.pending.subset (List.mem_of_getElem? hn)
  -- the validation that handed it over, and the record that passed then
  obtain ⟨v, hv, rfl⟩ := List.mem_map.1 hid
  obtain ⟨r, hr, hrv⟩ := h.known v hv
  obtain ⟨before, since, hhistory⟩ := List.append_of_mem hr
  have hids := h.ids
  rw [hhistory] at hids
  have hrid : r.id = v.id := (Record.eq_of_withoutUse_eq hrv).1
  rw [← hrid]
  refine ⟨r, before, since, rfl, hhistory, fun _ => Storage.id_ne_of_nodup hids,
    ⟨v, hv, hrid.symm⟩, fun v' hv' hid => ?_, ?_⟩
  -- whatever passed under the id had been stored, and one record only was stored under it
  · obtain ⟨r', hr', hrv'⟩ := h.known v' hv'
    have hid' := (Record.eq_of_withoutUse_eq hrv').1.trans hid
    rw [← Storage.eq_of_nodup hids (hhistory ▸ hr') hid', hrv']
  · split
    · next hrevoked =>
      -- no record is kept under the id, since the one that was stored under it is not
      refine fun now => congrArg Prod.snd (h.faithful.store.touch_missing ?_ now)
      rintro r' since' ⟨⟨before', hbefore'⟩, hkept⟩ hid
      obtain rfl := Storage.eq_of_nodup hids (by simp [← hhistory, hbefore']) hid
      rw [hhistory] at hbefore'
      exact hkept (Storage.since_eq_of_nodup hids hbefore' ▸ hrevoked)
    · next hkept => exact h.faithful.store.touch_kept ⟨⟨before, hhistory⟩, hkept⟩

theorem step_touch {n : Nat} {id : Int64} (hn : s.world.pending[n]? = some id) (now : Instant) :
    s.step Memory.driver c (.touch n now) =
      { s with world := { s.world with
          store := (s.world.store.touch id now).2
          pending := s.world.pending.eraseIdx n } } := by
  rw [step, World.touch, hn]
  rfl

end Session

/-- **Touches are harmless.** Clones of a client make any operations at once on one store that was empty,
and the touches that they hand over are made at any later moves, in any order, or not at all.

* Whenever a validation passes, and only then, the touch of the record that passed is added to the pending
  ones; so these are touches of records that passed, one for each validation at most.
* A touch that is pending is of one record, the only one that was ever stored under the id, and the one
  that passed, but for the time of its last use. If its digest was revoked since it was stored, the touch
  changes nothing in the store; otherwise the record is there, and the touch changes the time of its last
  use and nothing else. It ends no operation and moves none on.
* If the same moves are made but for the touches, which are made at other times or not at all, then every
  operation is answered the same but for the time of the last use of its record, and the store ends with
  the same records but for that, with the same index of digests, and with the same counter. -/
theorem touches_are_harmless {c : Client} (hc : c.service.connected = true) (moves : List Move) :
    let fresh : Session Memory := { world := { store := Memory.empty } }
    let s := Session.run Memory.driver c moves fresh
    let m := s.world.store
    (∀ move : Move, move.isTouch = false →
      (s.step Memory.driver c move).world.pending = s.world.pending ++
        ((s.answers Memory.driver c move).filterMap Outcome.validated?).map Record.id) ∧
    s.world.pending.Sublist (s.validated.map Record.id) ∧
    (∀ n id, s.world.pending[n]? = some id →
      ∃ (r : Record) (before since : List Change), r.id = id ∧
        s.history = before ++ .stored r :: since ∧
        (∀ r', .stored r' ∈ before ++ since → r'.id ≠ id) ∧ (∃ v ∈ s.validated, v.id = id) ∧
        (∀ v ∈ s.validated, v.id = id → v.withoutUse = r.withoutUse) ∧
        ∀ now, ∃ m' : Memory,
          s.step Memory.driver c (.touch n now) =
            { s with world := { s.world with
                store := m', pending := s.world.pending.eraseIdx n } } ∧
          if .revoked r.digest ∈ since then m' = m
          else ∃ used, m.byId[id]? = some { r with lastUsedAt := used } ∧
            m' = { m with byId := m.byId.insert id { r with lastUsedAt := some now } }) ∧
    ∀ moves' : List Move,
      moves.filter (fun move => !move.isTouch) = moves'.filter (fun move => !move.isTouch) →
      let t := Session.run Memory.driver c moves' fresh
      s.outcomes.map Outcome.withoutUse = t.outcomes.map Outcome.withoutUse ∧
        (∀ i : Int64, m.byId[i]?.map Record.withoutUse =
          t.world.store.byId[i]?.map Record.withoutUse) ∧
        m.byDigest = t.world.store.byDigest ∧ m.nextId = t.world.store.nextId := by
  intro fresh s m
  -- the first three parts are the invariant after the moves, and the last one compares two runs
  have h : s.Orderly := Session.orderly_run hc moves
  refine ⟨fun move => h.handedOver, h.pending, fun n id hn => ?_, fun moves' hmoves => ?_⟩
  · obtain ⟨r, before, since, hid, hhistory, honly, hpassed, hsame, heffect⟩ := h.touched hn
    refine ⟨r, before, since, hid, hhistory, honly, hpassed, hsame, fun now => ?_⟩
    refine ⟨_, Session.step_touch hn now, ?_⟩
    split
    · next hrevoked =>
      rw [if_pos hrevoked] at heffect
      exact heffect now
    · next hkept =>
      rw [if_neg hkept] at heffect
      exact heffect.imp fun used => And.imp_right (· now)
  · obtain ⟨houtcomes, hstore⟩ :=
      Session.outcomes_of_same_moves (c := c) (s := fresh) (fun _ => rfl) hmoves
    exact ⟨houtcomes, hstore.byId, hstore.byDigest, hstore.nextId⟩

/-- A clone issues a token, which is validated. -/
def validateOne : List Move :=
  issueOne ++ .start 1 0 (.validate ("1|" ++ zeroSecret)) ::
    List.replicate 4 (.proceed 1 (stillOccasion.clock 0) (stillOccasion.random 0))

theorem touches_are_harmless_validateOne :
    let s := Session.run Memory.driver plainClient validateOne
      { world := { store := Memory.empty } }
    let t := Session.run Memory.driver plainClient (validateOne ++ [.touch 0 ⟨9, 0, by decide⟩])
      { world := { store := Memory.empty } }
    plainClient.service.connected = true ∧ s.world.pending = [1] ∧
      (∃ v ∈ s.validated, v.id = 1) ∧
      s.outcomes.map Outcome.withoutUse = t.outcomes.map Outcome.withoutUse := by
  intro s t
  have hc : plainClient.service.connected = true := rfl
  have hpending : s.world.pending = [1] := by decide +kernel
  obtain ⟨-, -, htouch, hsame⟩ := touches_are_harmless hc validateOne
  obtain ⟨r, before, since, -, -, -, hpassed, -⟩ := htouch 0 1 (by rw [hpending]; rfl)
  refine ⟨hc, hpending, hpassed, (hsame _ ?_).1⟩
  rw [List.filter_append]
  exact (List.append_nil _).symm

end AccessTokens
