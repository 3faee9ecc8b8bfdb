import AccessTokens.Proofs.Storage.MemoryIndex

/-!
# What a store in memory remembers

Records do not change once they are stored, except for the time of their last use. So a store in memory
can be read off its history: the record under an id is the one that the history keeps with that id
(`KeptSince`), used last at the latest touch (`Record.usedSince`). `Memory.Holds log` says this of a
state, and every call keeps it (`Holds.answer`).

Both ways to look a record up then answer from the history alone. A kept record is found by its digest
and by its id, and is refused once it is expired; a digest or an id that no kept record has is not
found, and can neither be revoked nor touched. Which records are kept depends on the history only where
it stores or revokes that digest, and when one was last used only where it touches that id
(`keptSince_concat_iff`, `Record.usedSince_concat_of_touchOf?`), which is why no other call changes
these answers.
-/

namespace AccessTokens.Storage

open Time (Instant)

namespace Memory

variable {m : Memory} {log : List Change}

/-- The records of a store are those that its history keeps, as they were used since. -/
structure Holds (log : List Change) (m : Memory) : Prop extends Numbered log m where
  byId_iff : ∀ {i : Int64} {s : Record}, m.byId[i]? = some s ↔
    ∃ r since, KeptSince log r since ∧ r.id = i ∧ s = r.usedSince since

theorem Holds.empty : Holds [] Memory.empty where
  toNumbered := Numbered.empty
  byId_iff := by
    intro i s
    constructor
    · intro h
      simp [Memory.empty] at h
    · rintro ⟨r, since, h, -⟩
      exact absurd h (not_keptSince_nil r since)

theorem Holds.byId_of_kept (h : m.Holds log) {r : Record} {since : List Change}
    (hk : KeptSince log r since) : m.byId[r.id]? = some (r.usedSince since) :=
  h.byId_iff.2 ⟨r, since, hk, rfl, rfl⟩

theorem Holds.byDigest_of_kept (h : m.Holds log) {r : Record} {since : List Change}
    (hk : KeptSince log r since) : m.byDigest[r.digest]? = some r.id :=
  h.sound.byDigest_iff.2 ⟨_, h.byId_of_kept hk, rfl⟩

theorem Holds.byId_eq_none (h : m.Holds log) {i : Int64}
    (hno : ∀ r since, KeptSince log r since → r.id ≠ i) : m.byId[i]? = none := by
  rw [Option.eq_none_iff_forall_ne_some]
  intro s hs
  -- whatever is found under the id is kept with it
  obtain ⟨r, since, hk, hi, -⟩ := h.byId_iff.1 hs
  exact hno r since hk hi

theorem Holds.byDigest_eq_none (h : m.Holds log) {d : String}
    (hno : ∀ r since, KeptSince log r since → r.digest ≠ d) : m.byDigest[d]? = none := by
  rw [Option.eq_none_iff_forall_ne_some]
  intro i hi
  obtain ⟨s, hs, hd⟩ := h.sound.byDigest_iff.1 hi
  obtain ⟨r, since, hk, -, rfl⟩ := h.byId_iff.1 hs
  exact hno r since hk hd

/-! ### One more change -/

/-- A stored record is kept from now on, and the others stay as they are. Its id was free, so it takes the
place of no other record. -/
theorem Holds.stored (h : m.Holds log) {r : Record} (ha : m.Allows (.stored r)) {i : Int64}
    {s : Record} : (m.apply (.stored r)).byId[i]? = some s ↔
      ∃ r' since, KeptSince (log ++ [.stored r]) r' since ∧ r'.id = i ∧ s = r'.usedSince since := by
  have hsame (r' : Record) (since : List Change) :
      r'.usedSince (since ++ [.stored r]) = r'.usedSince since :=
    r'.usedSince_concat_of_touchOf? since rfl
  -- what is kept after the change is the new record, or was kept before it
  rw [byId_stored]
  constructor
  · intro hs
    split at hs
    · -- the new record, of which nothing is known since
      next hi => exact ⟨r, [], keptSince_concat_iff.2 (.inl ⟨rfl, rfl⟩), hi, by simpa using hs.symm⟩
    · obtain ⟨r', since, hk, hi, rfl⟩ := h.byId_iff.1 hs
      exact ⟨r', _, keptSince_concat_iff.2 (.inr ⟨since, rfl, hk, by simp⟩), hi,
        (hsame r' since).symm⟩
  · rintro ⟨r', since, hk, rfl, rfl⟩
    rcases keptSince_concat_iff.1 hk with ⟨hx, rfl⟩ | ⟨since, rfl, hk, -⟩
    · obtain rfl : r = r' := by simpa using hx
      rw [if_pos rfl, Record.usedSince_nil]
    · -- the id was free, so no record kept before has it
      have hr' := h.byId_of_kept hk
      rw [if_neg, hr', hsame]
      intro hid
      rw [← hid, ha.2.1] at hr'
      cases hr'

/-- A revoked record is kept no longer, and the others stay as they are. The digest leads to one record
only, and this is the one whose id is taken out. -/
theorem Holds.revoked (h : m.Holds log) {digest : String} (ha : m.Allows (.revoked digest))
    {i : Int64} {s : Record} : (m.apply (.revoked digest)).byId[i]? = some s ↔
      ∃ r since, KeptSince (log ++ [.revoked digest]) r since ∧ r.id = i ∧
        s = r.usedSince since := by
  have hsame (r : Record) (since : List Change) :
      r.usedSince (since ++ [.revoked digest]) = r.usedSince since :=
    r.usedSince_concat_of_touchOf? since rfl
  obtain ⟨id, hid⟩ := ha
  rw [byId_revoked i hid]
  constructor
  · intro hs
    split at hs
    · cases hs
    next hne =>
    obtain ⟨r, since, hk, rfl, rfl⟩ := h.byId_iff.1 hs
    refine ⟨r, _, keptSince_concat_iff.2 (.inr ⟨since, rfl, hk, ?_⟩), rfl, (hsame r since).symm⟩
    -- the digest leads to the id that is gone, and not to this one
    intro hx
    obtain rfl : digest = r.digest := by simpa using hx
    rw [h.byDigest_of_kept hk] at hid
    exact hne (Option.some.inj hid).symm
  · rintro ⟨r, since, hk, rfl, rfl⟩
    rcases keptSince_concat_iff.1 hk with ⟨hx, -⟩ | ⟨since, rfl, hk, hx⟩
    · cases hx
    · have hr := h.byId_of_kept hk
      rw [if_neg, hr, hsame]
      -- were it under the id that is gone, it would have the digest that is revoked
      rintro rfl
      obtain ⟨s, hs, hd⟩ := h.sound.byDigest_iff.1 hid
      rw [hr] at hs
      exact hx (by rw [← hd, ← Option.some.inj hs, Record.digest_usedSince])

/-- A touched record was last used now, and the others stay as they are. If nothing is under the id, then no
kept record has it, and nothing changes on either side. -/
theorem Holds.touched (h : m.Holds log) (id : Int64) (now : Instant) {i : Int64} {s : Record} :
    (m.apply (.touched id now)).byId[i]? = some s ↔
      ∃ r since, KeptSince (log ++ [.touched id now]) r since ∧ r.id = i ∧
        s = r.usedSince since := by
  have hother {r : Record} (hne : id ≠ r.id) (since : List Change) :
      r.usedSince (since ++ [.touched id now]) = r.usedSince since :=
    r.usedSince_concat_of_touchOf? since (if_neg hne)
  rw [byId_touched]
  constructor
  · intro hs
    split at hs
    · -- the touched record itself
      next hi =>
      obtain ⟨s', hs', rfl⟩ := Option.map_eq_some_iff.1 hs
      obtain ⟨r, since, hk, rfl, rfl⟩ := h.byId_iff.1 hs'
      subst hi
      exact ⟨r, _, keptSince_concat_iff.2 (.inr ⟨since, rfl, hk, by simp⟩), rfl,
        (r.usedSince_concat_touched since now).symm⟩
    · next hi =>
      obtain ⟨r, since, hk, rfl, rfl⟩ := h.byId_iff.1 hs
      exact ⟨r, _, keptSince_concat_iff.2 (.inr ⟨since, rfl, hk, by simp⟩), rfl,
        (hother hi since).symm⟩
  · rintro ⟨r, since, hk, rfl, rfl⟩
    rcases keptSince_concat_iff.1 hk with ⟨hx, -⟩ | ⟨since, rfl, hk, -⟩
    · cases hx
    · rw [h.byId_of_kept hk]
      by_cases hid : id = r.id
      · subst hid
        rw [if_pos rfl, r.usedSince_concat_touched since now]
        rfl
      · rw [if_neg hid, hother hid]

/-- **Every allowed change keeps the store in step with its history.** -/
theorem Holds.apply (h : m.Holds log) {x : Change} (ha : m.Allows x) :
    (m.apply x).Holds (log ++ [x]) where
  toNumbered := h.toNumbered.apply ha
  byId_iff := by
    cases x with
    | stored r => exact h.stored ha
    | revoked digest => exact h.revoked ha
    | touched id now => exact h.touched id now

/-- Every call keeps the store in step with its history, to which it adds what its answer tells of. -/
theorem Holds.answer (h : m.Holds log) (c : Call) (now : Instant) :
    (m.answer c now).2.Holds (log ++ (Change.ofAnswer? c now (m.answer c now).1).toList) :=
  h.sound.answer_of_apply (P := fun log m => m.Holds log) (fun _ ha => h.apply ha) h c now

theorem run_holds (asked : List (Call × Instant)) :
    (driver.run asked empty).2.Holds (driver.run asked empty).1 :=
  driver.run_induction (P := fun log m => m.Holds log) Holds.empty
    (fun _ _ c now h => h.answer c now) asked

/-! ### Lookups -/

section Lookups

variable (h : m.Holds log)

include h

theorem Holds.findById_kept {r : Record} {since : List Change} (hk : KeptSince log r since)
    (now : Instant) : m.findById r.id now = unexpired (r.usedSince since) now := by
  rw [findById, h.byId_of_kept hk]

theorem Holds.findByDigest_kept {r : Record} {since : List Change} (hk : KeptSince log r since)
    (now : Instant) : m.findByDigest r.digest now = unexpired (r.usedSince since) now := by
  -- the index of digests leads to the id, and from there it is a lookup by the id
  rw [findByDigest, h.byDigest_of_kept hk]
  exact h.findById_kept hk now

theorem Holds.digest_missing {d : String} (hno : ∀ r since, KeptSince log r since → r.digest ≠ d)
    (now : Instant) : m.findByDigest d now = .error .notFound ∧ m.revoke d = (.error .notFound, m) := by
  rw [findByDigest, revoke, h.byDigest_eq_none hno]
  exact ⟨rfl, rfl⟩

theorem Holds.id_missing {i : Int64} (hno : ∀ r since, KeptSince log r since → r.id ≠ i)
    (now : Instant) : m.findById i now = .error .notFound ∧ m.touch i now = (.error .notFound, m) := by
  rw [findById, touch, h.byId_eq_none hno]
  exact ⟨rfl, rfl⟩

/-- A call that neither revokes the digest of a kept record nor touches its id leaves the record
kept, and used last when it was. -/
theorem Holds.kept_answer {r : Record} {since : List Change} (hk : KeptSince log r since) {c : Call}
    (t : Instant) (hrevoke : c ≠ .revoke r.digest) (htouch : c ≠ .touch r.id) :
    ∃ since', KeptSince (log ++ (Change.ofAnswer? c t (m.answer c t).1).toList) r since' ∧
      r.usedSince since' = r.usedSince since := by
  rcases h.sound.answer_cases c t with ⟨hx, -⟩ | ⟨x, hx, -, -⟩
  · rw [hx, Option.toList_none, List.append_nil]
    exact ⟨since, hk, rfl⟩
  · rw [hx]
    obtain ⟨-, hr, ht⟩ := Change.call_of_ofAnswer? hx
    -- the change of this call is neither a revoking of the digest nor a touch of the id
    refine ⟨since ++ [x], keptSince_concat_iff.2 (.inr ⟨since, rfl, hk, ?_⟩),
      r.usedSince_concat_of_touchOf? since ?_⟩
    · rintro rfl
      exact hrevoke (hr _ rfl)
    · cases x with
      | touched id now =>
        rw [Change.touchOf?, if_neg]
        rintro rfl
        exact htouch (ht _ now rfl)
      | _ => rfl

/-- A call that does not store a digest leaves it without a kept record, if it was without one. Revoking,
touching and looking up bring no record, and storing brings the one that was asked for. -/
theorem Holds.digest_missing_answer {d : String}
    (hno : ∀ r since, KeptSince log r since → r.digest ≠ d) (c : Call) (t : Instant)
    (hstore : ∀ r : Record, c = .store r → r.digest ≠ d) :
    ∀ r since, KeptSince (log ++ (Change.ofAnswer? c t (m.answer c t).1).toList) r since →
      r.digest ≠ d := by
  intro r since hk
  -- a record that is kept now was stored by this call, which stores another digest, or was kept before
  rcases hk.before with hx | ⟨s, hk⟩
  · obtain ⟨r', rfl, hd⟩ := h.sound.digest_of_stored hx
    rw [hd]
    exact hstore r' rfl
  · exact hno r s hk

end Lookups

/-! ### Touches aside -/

/-- A store holds what a history of stored records and revoked digests says, however it was touched in
between. -/
def Remembers (told : List Change) (m : Memory) : Prop :=
  ∃ log, m.Holds log ∧ log.filter Change.isLasting = told

theorem Remembers.empty : Memory.empty.Remembers [] := ⟨[], Holds.empty, rfl⟩

variable {told : List Change}

/-- Every call keeps the store in step with the history, which a touch does not add to. So the history need
not be known up to its touches, which come at any time. -/
theorem Remembers.answer (h : m.Remembers told) (c : Call) (now : Instant) :
    (m.answer c now).2.Remembers
      (told ++ ((Change.ofAnswer? c now (m.answer c now).1).filter Change.isLasting).toList) := by
  obtain ⟨log, hlog, rfl⟩ := h
  refine ⟨_, hlog.answer c now, ?_⟩
  -- a touch is left out on both sides
  rw [List.filter_append]
  cases Change.ofAnswer? c now (m.answer c now).1 with
  | none => rfl
  | some x => cases x <;> rfl

/-- A kept record is found by its digest until it is expired, as it was stored but for the time of its
last use. -/
theorem Remembers.findByDigest_kept (h : m.Remembers told) {r : Record} {since : List Change}
    (hk : KeptSince told r since) :
    ∃ used, ∀ now, m.findByDigest r.digest now = unexpired { r with lastUsedAt := used } now := by
  obtain ⟨log, hlog, rfl⟩ := h
  -- the full history keeps the record as well, with the touches that were left out of what was told
  obtain ⟨s, hk, -⟩ := keptSince_filter_iff.1 hk
  exact ⟨_, fun now => hlog.findByDigest_kept hk now⟩

theorem Remembers.findByDigest_missing (h : m.Remembers told) {d : String}
    (hno : ∀ r since, KeptSince told r since → r.digest ≠ d) (now : Instant) :
    m.findByDigest d now = .error .notFound := by
  obtain ⟨log, hlog, rfl⟩ := h
  refine (hlog.digest_missing (fun r s hk => ?_) now).1
  exact hno r _ (keptSince_filter_iff.2 ⟨s, hk, rfl⟩)

/-- A digest is looked up in vain, or what is found was kept, but for the time of its last use. An expired
record is looked up in vain, too. -/
theorem Remembers.findByDigest_cases (h : m.Remembers told) (d : String) (now : Instant) :
    (∃ e, m.findByDigest d now = .error e ∧ (e = .notFound ∨ e = .expired)) ∨
      ∃ r since used, KeptSince told r since ∧ r.digest = d ∧
        m.findByDigest d now = .ok { r with lastUsedAt := used } := by
  by_cases hno : ∀ r since, KeptSince told r since → r.digest ≠ d
  · exact .inl ⟨_, h.findByDigest_missing hno now, .inl rfl⟩
  · simp only [not_forall, not_not] at hno
    obtain ⟨r, since, hk, rfl⟩ := hno
    obtain ⟨used, hfind⟩ := h.findByDigest_kept hk
    rw [hfind, unexpired]
    split
    · exact .inl ⟨_, rfl, .inr rfl⟩
    · exact .inr ⟨r, since, used, hk, rfl, rfl⟩

/-- A touch marks a kept record as used, and changes nothing else: not the index of digests, not the
counter, and no other record. -/
theorem Remembers.touch_kept (h : m.Remembers told) {r : Record} {since : List Change}
    (hk : KeptSince told r since) :
    ∃ used, m.byId[r.id]? = some { r with lastUsedAt := used } ∧ ∀ now, (m.touch r.id now).2 =
      { m with byId := m.byId.insert r.id { r with lastUsedAt := some now } } := by
  obtain ⟨log, hlog, rfl⟩ := h
  obtain ⟨s, hk, -⟩ := keptSince_filter_iff.1 hk
  have hr := hlog.byId_of_kept hk
  refine ⟨_, hr, fun now => ?_⟩
  rw [touch, hr]
  rfl

theorem Remembers.touch_missing (h : m.Remembers told) {i : Int64}
    (hno : ∀ r since, KeptSince told r since → r.id ≠ i) (now : Instant) :
    m.touch i now = (.error .notFound, m) := by
  obtain ⟨log, hlog, rfl⟩ := h
  refine (hlog.id_missing (fun r s hk => ?_) now).2
  exact hno r _ (keptSince_filter_iff.2 ⟨s, hk, rfl⟩)

/-- **What a store in memory remembers.** After every run, as its history says:

* a record that was stored, and whose digest was not revoked since, is answered both by its digest and
  by its id: it is refused as expired once the clock is after its expiry, and otherwise comes back as
  it was stored, last used at the latest touch of its id since then, if there was one;
* a digest that no such record has is not found and cannot be revoked, and an id that no such record
  has is not found and cannot be touched;
* none of this is changed by one more call that is about another digest and another id: the answers
  for a kept record change only when its digest is revoked or its id touched, a missing digest stays
  missing until a record with it is stored, and a missing id until a record is stored under it. -/
theorem lookups_follow_history (asked : List (Call × Instant)) :
    let log := (driver.run asked empty).1
    let m := (driver.run asked empty).2
    (∀ (r : Record) (since : List Change), KeptSince log r since → ∀ now : Instant,
      let found : Except StorageError Record := if r.isExpiredAt now then .error .expired
        else .ok { r with lastUsedAt := (lastTouch? r.id since).or r.lastUsedAt }
      (driver.answer (.findByDigest r.digest) now m).1 = found ∧
        (driver.answer (.findById r.id) now m).1 = found) ∧
    (∀ d : String, (∀ r since, KeptSince log r since → r.digest ≠ d) → ∀ now : Instant,
      (driver.answer (.findByDigest d) now m).1 = .error .notFound ∧
        (driver.answer (.revoke d) now m).1 = .error .notFound) ∧
    (∀ i : Int64, (∀ r since, KeptSince log r since → r.id ≠ i) → ∀ now : Instant,
      (driver.answer (.findById i) now m).1 = .error .notFound ∧
        (driver.answer (.touch i) now m).1 = .error .notFound) ∧
    ∀ (c : Call) (t : Instant),
      let m' := (driver.answer c t m).2
      (∀ (r : Record) (since : List Change), KeptSince log r since →
        c ≠ .revoke r.digest → c ≠ .touch r.id → ∀ now : Instant,
          (driver.answer (.findByDigest r.digest) now m').1 =
              (driver.answer (.findByDigest r.digest) now m).1 ∧
            (driver.answer (.findById r.id) now m').1 =
              (driver.answer (.findById r.id) now m).1) ∧
      (∀ d : String, (∀ r since, KeptSince log r since → r.digest ≠ d) →
        (∀ r : Record, c = .store r → r.digest ≠ d) → ∀ now : Instant,
          (driver.answer (.findByDigest d) now m').1 = .error .notFound ∧
            (driver.answer (.revoke d) now m').1 = .error .notFound) ∧
      ∀ i : Int64, (∀ r since, KeptSince log r since → r.id ≠ i) →
        (∀ r : Record,
          Change.ofAnswer? c t (driver.answer c t m).1 = some (.stored r) → r.id ≠ i) →
        ∀ now : Instant, (driver.answer (.findById i) now m').1 = .error .notFound ∧
          (driver.answer (.touch i) now m').1 = .error .notFound := by
  intro log m
  have h : m.Holds log := run_holds asked
  refine ⟨?_, ?_, ?_, ?_⟩
  · intro r since hk now
    exact ⟨h.findByDigest_kept hk now, h.findById_kept hk now⟩
  · intro d hno now
    have hd := h.digest_missing hno now
    exact ⟨hd.1, congrArg Prod.fst hd.2⟩
  · intro i hno now
    have hi := h.id_missing hno now
    exact ⟨hi.1, congrArg Prod.fst hi.2⟩
  · intro c t m'
    -- the state after the call is in step with the history that has the change of the call
    have h' : m'.Holds (log ++ (Change.ofAnswer? c t (m.answer c t).1).toList) := h.answer c t
    refine ⟨?_, ?_, ?_⟩
    -- what is looked up before and after the call is the same record with the same last use
    · intro r since hk hrevoke htouch now
      obtain ⟨since', hk', hr⟩ := h.kept_answer hk t hrevoke htouch
      constructor
      · change m'.findByDigest r.digest now = m.findByDigest r.digest now
        rw [h'.findByDigest_kept hk', h.findByDigest_kept hk, hr]
      · change m'.findById r.id now = m.findById r.id now
        rw [h'.findById_kept hk', h.findById_kept hk, hr]
    · intro d hno hstore now
      have hd := h'.digest_missing (h.digest_missing_answer hno c t hstore) now
      exact ⟨hd.1, congrArg Prod.fst hd.2⟩
    · intro i hno hstore now
      have hno' : ∀ r since,
          KeptSince (log ++ (Change.ofAnswer? c t (m.answer c t).1).toList) r since → r.id ≠ i := by
        intro r since hk
        -- a record that is kept now was stored by this call, or was kept before
        rcases hk.before with hx | ⟨s, hk⟩
        · exact hstore r hx
        · exact hno r s hk
      have hi := h'.id_missing hno' now
      exact ⟨hi.1, congrArg Prod.fst hi.2⟩

end Memory

end AccessTokens.Storage
