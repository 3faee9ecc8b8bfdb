import AccessTokens.Proofs.Service.Conversation
import AccessTokens.Storage.Scripted

/-!
# Checking does not take the store's word

A presented text is checked against the answer of some store, of which nothing is assumed: it may have
the record of another token, an expired one, or any error. What comes of it is decided by
`Service.weigh` from that one answer, the digest that was asked for, and a reading of the clock taken
after the answer (`Service.runFrom_inspect`).

What is asked on the way is read off the conversation (`Service.asked_inspect`). The store is asked once,
and only for a text of two parts; everything after its answer is beside the store
(`Exchange.IsAside`): warnings and a reading of the clock. Validating goes on with one touch of the
record that passed. `Service.checking_trusts_no_driver` puts the two together.
-/

namespace AccessTokens

open Time (Instant)

/-- An exchange that has to do neither with the store nor with touches. Reading the clock and warning are of
this kind. -/
def Exchange.IsAside (x : Exchange) : Prop := x.call? = none ∧ x.handedOver? = none

namespace Service

/-! ### After the answer of the store -/

/-- What checking makes of the answer that a store had for a token. The digest is compared before the
expiry, so that the record of another token is refused as such even when it is expired. -/
def weigh (token : PlainToken) (now : Instant) :
    Except StorageError Record → Except ServiceError Record
  | .error e => .error (.ofStorage e)
  | .ok record =>
    if record.digest ≠ Secret.digest token.secret then .error .tokenInvalid
    else if record.isExpiredAt now then .error .tokenExpired
    else .ok record

theorem weigh_eq_ok_iff {token : PlainToken} {now : Instant} {a : Except StorageError Record}
    {record : Record} : weigh token now a = .ok record ↔
      a = .ok record ∧ record.digest = Secret.digest token.secret ∧
        record.isExpiredAt now = false := by
  cases a with
  | error e => simp [weigh]
  | ok r =>
    rw [weigh]
    -- the two checks in the order in which they are made, and then the record itself
    split
    · next hd =>
      simp only [reduceCtorEq, Except.ok.injEq, false_iff, not_and]
      rintro rfl hd'
      exact absurd hd' hd
    · next hd =>
      split
      · next he =>
        simp only [reduceCtorEq, Except.ok.injEq, false_iff, not_and]
        rintro rfl -
        simp [he]
      · next he =>
        rw [Except.ok.injEq, Except.ok.injEq]
        constructor
        · rintro rfl
          exact ⟨rfl, by simpa using hd, by simpa using he⟩
        · exact fun h => h.1

theorem weigh_of_other {token : PlainToken} {record : Record}
    (h : record.digest ≠ Secret.digest token.secret) (now : Instant) :
    weigh token now (.ok record) = .error .tokenInvalid := if_pos h

theorem aside_of_refused {α : Type} {w : Warning} {a b : α} {xs : List Exchange}
    (h : (Program.ask (.warn w) fun _ => .done a).Follows xs b) : ∀ x ∈ xs, x.IsAside := by
  obtain ⟨r, rfl, -⟩ := h.of_last
  intro x hx
  obtain rfl := List.mem_singleton.1 hx
  exact ⟨rfl, rfl⟩

/-- Once the store has answered, it is not asked again, and no touch is handed over. What is left is to
compare the digest, to read the clock, and to warn. -/
theorem aside_of_afterLookup {token : PlainToken} {a : Except StorageError Record}
    {xs : List Exchange} {b : Except ServiceError Record} (h : (afterLookup token a).Follows xs b) :
    ∀ x ∈ xs, x.IsAside := by
  cases a with
  | error e =>
    cases e with
    | notFound => exact aside_of_refused h
    | expired => exact aside_of_refused h
    | _ =>
      obtain ⟨rfl, -⟩ := h.of_done
      simp
  | ok record =>
    rw [afterLookup] at h
    by_cases hd : record.digest = Secret.digest token.secret
    · rw [checkRecord_of_eq hd] at h
      obtain ⟨now, ys, rfl, hnow⟩ := h.of_ask
      -- behind the clock there is a warning at most
      have hys : ∀ x ∈ ys, x.IsAside := by
        cases he : record.isExpiredAt now with
        | true =>
          obtain ⟨expiry, hr⟩ := afterReading_of_expired he
          rw [hr] at hnow
          exact aside_of_refused hnow
        | false =>
          rw [afterReading_of_live he] at hnow
          obtain ⟨rfl, -⟩ := hnow.of_done
          simp
      intro x hx
      rcases List.mem_cons.1 hx with rfl | hx
      · exact ⟨rfl, rfl⟩
      · exact hys x hx
    · rw [checkRecord_of_ne hd] at h
      exact aside_of_refused h

section Run

variable {σ : Type} (driver : Storage.Driver σ) (o : Occasion) (n : Nat)

theorem runFrom_afterLookup (token : PlainToken) (a : Except StorageError Record) (w : World σ) :
    (w.runFrom driver o n (afterLookup token a)).1 = weigh token (o.clock n) a := by
  cases a with
  | error e => cases e <;> rfl
  | ok record =>
    rw [afterLookup]
    by_cases hd : record.digest = Secret.digest token.secret
    · rw [checkRecord_of_eq hd, World.runFrom_ask]
      change (World.runFrom driver o (n + 1) (afterReading record (o.clock n)) w).1 = _
      rw [weigh, if_neg (not_not_intro hd)]
      -- the record is the right one, and the clock decides
      cases he : record.isExpiredAt (o.clock n) with
      | true =>
        obtain ⟨expiry, hr⟩ := afterReading_of_expired he
        rw [hr]
        rfl
      | false =>
        rw [afterReading_of_live he]
        rfl
    · rw [checkRecord_of_ne hd, weigh_of_other hd]
      rfl

/-! ### Checking and validating -/

variable {s : Service} (hs : s.connected = true) {raw : String}

include hs

/-- **What checking comes to.** It is the answer of the store to one question, weighed at the reading of
the clock that comes after it. -/
theorem runFrom_inspect {token : PlainToken} (h : PlainToken.parse raw = .ok token) (w : World σ) :
    (w.runFrom driver o n (s.inspect raw).run).1 =
      weigh token (o.clock (n + 1))
        (driver.answer (.findByDigest (Secret.digest token.secret)) (o.clock n) w.store).1 := by
  rw [inspect_of_wellFormed hs h, World.runFrom_ask]
  exact runFrom_afterLookup driver o (n + 1) token _ _

theorem runFrom_inspect_malformed {e : PartCountError} (h : PlainToken.parse raw = .error e)
    (w : World σ) : (w.runFrom driver o n (s.inspect raw).run).1 = .error .invalidFormat := by
  rw [inspect_of_malformed hs h]
  rfl

theorem asked_inspect_malformed {e : PartCountError} (h : PlainToken.parse raw = .error e)
    {xs : List Exchange} {a : Except ServiceError Record}
    (hxs : (s.inspect raw).run.Follows xs a) : ∀ x ∈ xs, x.IsAside := by
  rw [inspect_of_malformed hs h] at hxs
  exact aside_of_refused hxs

/-- The store is asked for one digest, and everything after its answer is beside the store. Nothing comes
before the question, since cutting the text asks for nothing. -/
theorem asked_inspect {token : PlainToken} (h : PlainToken.parse raw = .ok token)
    {xs : List Exchange} {a : Except ServiceError Record}
    (hxs : (s.inspect raw).run.Follows xs a) :
    ∃ found ys, xs = ⟨.store (.findByDigest (Secret.digest token.secret)), found⟩ :: ys ∧
      ∀ x ∈ ys, x.IsAside := by
  rw [inspect_of_wellFormed hs h] at hxs
  obtain ⟨found, ys, rfl, hys⟩ := hxs.of_ask
  exact ⟨found, ys, rfl, aside_of_afterLookup hys⟩

omit hs

theorem runFrom_validate (s : Service) (raw : String) (w : World σ) :
    (w.runFrom driver o n (s.validate raw).run).1 =
      (w.runFrom driver o n (s.inspect raw).run).1 := by
  rw [validate_eq, World.runFrom_bind]
  cases (w.runFrom driver o n (s.inspect raw).run).1 with
  | ok record => rfl
  | error e => rfl

/-- Validating asks what checking asks, and then hands over a touch of the record that passed. After a
refusal there is nothing to hand over, and both conversations are the same. -/
theorem conversation_validate (s : Service) (raw : String) (w : World σ) :
    w.conversation driver o n (s.validate raw).run =
      w.conversation driver o n (s.inspect raw).run ++
        match (w.runFrom driver o n (s.inspect raw).run).1 with
        | .ok record => [⟨.touchLater record.id, ()⟩]
        | .error _ => [] := by
  rw [validate_eq, World.conversation_bind]
  cases (w.runFrom driver o n (s.inspect raw).run).1 with
  | ok record => rfl
  | error e => rfl

/-! ### Any store -/

theorem asked_of_aside {xs : List Exchange} (h : ∀ x ∈ xs, x.IsAside) :
    xs.filterMap Exchange.call? = [] ∧ xs.filterMap Exchange.handedOver? = [] := by
  rw [List.filterMap_eq_nil_iff, List.filterMap_eq_nil_iff]
  exact ⟨fun x hx => (h x hx).1, fun x hx => (h x hx).2⟩

/-- **Checking does not take the store's word.** Whatever store is asked and whatever it answers, for
every text and at every reading of the clock:

* validating and inspecting answer alike;
* the store is asked for nothing if the text is no token, and otherwise for one thing, the record of the
  digest of its secret;
* a record passes exactly when the text is a token, the store answered with this record, its digest is
  that digest, and the clock of the check itself is not after its expiry;
* a record with another digest is refused as such, expired or not;
* inspecting hands over no touch, and validating hands over one, of the record that passed, and none if
  no record passed. -/
theorem checking_trusts_no_driver (hs : s.connected = true) (raw : String) (w : World σ) :
    let inspection := (s.inspect raw).run
    let validation := (s.validate raw).run
    let answer := (w.run driver o inspection).1
    let found (token : PlainToken) :=
      (driver.answer (.findByDigest (Secret.digest token.secret)) (o.clock 0) w.store).1
    let asked (p : Program (Except ServiceError Record)) :=
      (w.conversation driver o 0 p).filterMap Exchange.call?
    (w.run driver o validation).1 = answer ∧
    (∀ e, PlainToken.parse raw = .error e →
      answer = .error .invalidFormat ∧ asked inspection = [] ∧ asked validation = []) ∧
    (∀ token, PlainToken.parse raw = .ok token →
      asked inspection = [.findByDigest (Secret.digest token.secret)] ∧
        asked validation = [.findByDigest (Secret.digest token.secret)]) ∧
    (∀ record, answer = .ok record ↔ ∃ token, PlainToken.parse raw = .ok token ∧
      found token = .ok record ∧ record.digest = Secret.digest token.secret ∧
        ∀ expiry, record.expiresAt = some expiry → ¬ expiry < o.clock 1) ∧
    (∀ token record, PlainToken.parse raw = .ok token → found token = .ok record →
      record.digest ≠ Secret.digest token.secret → answer = .error .tokenInvalid) ∧
    (w.run driver o inspection).2.pending = w.pending ∧
    (w.run driver o validation).2.pending =
      w.pending ++ match answer with
        | .ok record => [record.id]
        | .error _ => [] := by
  intro inspection validation answer found asked
  have hconv : w.conversation driver o 0 validation = w.conversation driver o 0 inspection ++
      match answer with
        | .ok record => [⟨.touchLater record.id, ()⟩]
        | .error _ => [] := conversation_validate driver o 0 s raw w
  -- the touch that validating may hand over is no call
  have hvalidation : asked validation = asked inspection := by
    change (w.conversation driver o 0 validation).filterMap Exchange.call? = _
    rw [hconv, List.filterMap_append]
    cases answer <;> exact List.append_nil _
  have hmalformed (e : PartCountError) (h : PlainToken.parse raw = .error e) :
      answer = .error .invalidFormat := runFrom_inspect_malformed driver o 0 hs h w
  have hweigh (token : PlainToken) (h : PlainToken.parse raw = .ok token) :
      answer = weigh token (o.clock 1) (found token) := runFrom_inspect driver o 0 hs h w
  have hfollows := World.follows_conversation driver o 0 inspection w
  -- checking hands nothing over: all but the lookup is beside the store
  have hquiet : (w.conversation driver o 0 inspection).filterMap Exchange.handedOver? = [] := by
    cases h : PlainToken.parse raw with
    | error e => exact (asked_of_aside (asked_inspect_malformed hs h hfollows)).2
    | ok token =>
      obtain ⟨found, ys, hxs, hys⟩ := asked_inspect hs h hfollows
      rw [hxs, List.filterMap_cons_none (by rfl)]
      exact (asked_of_aside hys).2
  -- the parts in their order: malformed texts, the one call, what passes, strangers, and touches twice
  refine ⟨runFrom_validate driver o 0 s raw w, ?_, ?_, ?_, ?_, ?_, ?_⟩
  · intro e h
    have hnone : asked inspection = [] :=
      (asked_of_aside (asked_inspect_malformed hs h hfollows)).1
    exact ⟨hmalformed e h, hnone, hvalidation.trans hnone⟩
  · intro token h
    obtain ⟨found, ys, hxs, hys⟩ := asked_inspect hs h hfollows
    have hone : asked inspection = [.findByDigest (Secret.digest token.secret)] := by
      change (w.conversation driver o 0 inspection).filterMap Exchange.call? = _
      rw [hxs, List.filterMap_cons_some (by rfl), (asked_of_aside hys).1]
    exact ⟨hone, hvalidation.trans hone⟩
  · intro record
    -- what passed was weighed, and nothing is weighed of a malformed text
    constructor
    · intro hanswer
      cases h : PlainToken.parse raw with
      | error e =>
        rw [hmalformed e h] at hanswer
        cases hanswer
      | ok token =>
        rw [hweigh token h] at hanswer
        obtain ⟨hfound, hd, hlive⟩ := weigh_eq_ok_iff.1 hanswer
        refine ⟨token, rfl, hfound, hd, ?_⟩
        intro expiry he hlt
        rw [Record.isExpiredAt_iff.2 ⟨expiry, he, hlt⟩] at hlive
        cases hlive
    -- the other way round, every check that could refuse has been passed
    · rintro ⟨token, h, hfound, hd, hlive⟩
      have hexpired : record.isExpiredAt (o.clock 1) = false := by
        rw [Bool.eq_false_iff]
        intro he
        obtain ⟨expiry, hexpiry, hlt⟩ := Record.isExpiredAt_iff.1 he
        exact hlive expiry hexpiry hlt
      rw [hweigh token h]
      exact weigh_eq_ok_iff.2 ⟨hfound, hd, hexpired⟩
  · intro token record h hfound hd
    rw [hweigh token h, hfound, weigh_of_other hd]
  · change (w.runFrom driver o 0 inspection).2.pending = _
    rw [World.pending_runFrom, hquiet, List.append_nil]
  -- validating adds the touch at its end, if there is one
  · change (w.runFrom driver o 0 validation).2.pending = _
    rw [World.pending_runFrom, hconv, List.filterMap_append, hquiet]
    cases answer <;> rfl

end Run

/-- A store that answers every question with an expired record of another token. -/
def strayStore : Storage.Scripted where
  findByDigest := .ok
    { Record.fresh 1 "other" none [] .epoch (some ⟨-1, 0, by decide⟩) with id := 7 }

theorem checking_trusts_no_driver_stray :
    ({} : Service).connected = true ∧ PlainToken.parse "7|abc" = .ok ⟨"7", "abc"⟩ ∧
      "other" ≠ Secret.digest "abc" ∧
      (World.run Storage.Scripted.driver ⟨fun _ => .epoch, fun _ n => .ok (Vector.replicate n 0)⟩
        (({} : Service).validate "7|abc").run { store := strayStore }).1 = .error .tokenInvalid := by
  have hs : ({} : Service).connected = true := rfl
  have hraw : PlainToken.parse "7|abc" = .ok ⟨"7", "abc"⟩ := rfl
  have hd : "other" ≠ Secret.digest "abc" := by decide +kernel
  obtain ⟨hsame, -, -, -, hother, -⟩ := checking_trusts_no_driver Storage.Scripted.driver
    ⟨fun _ => .epoch, fun _ n => .ok (Vector.replicate n 0)⟩ hs "7|abc" { store := strayStore }
  exact ⟨hs, hraw, hd, hsame.trans (hother _ _ hraw rfl hd)⟩

end Service

end AccessTokens
