import AccessTokens.Storage.Memory

/-!
# Leaving the last use aside

Nothing that a store in memory decides depends on when a record was last used. Two stores that are the
same but for that (`Memory.SameButUse`) answer every call with the same answer but for that, and stay so
(`SameButUse.answer`); and a touch makes no more difference than that (`SameButUse.touched`).
-/

namespace AccessTokens

open Time (Instant)

namespace Record

/-- A record but for the time of its last use. -/
def withoutUse (r : Record) : Record := { r with lastUsedAt := none }

/-- What else there is of a record: of the rest, this is all that anybody looks at. The id and the digest
lead to it, and the expiry decides whether it is answered. -/
theorem eq_of_withoutUse_eq {r s : Record} (h : r.withoutUse = s.withoutUse) :
    r.id = s.id ∧ r.digest = s.digest ∧ r.expiresAt = s.expiresAt := by
  have hid : r.withoutUse.id = s.withoutUse.id := by rw [h]
  have hdigest : r.withoutUse.digest = s.withoutUse.digest := by rw [h]
  have hexpires : r.withoutUse.expiresAt = s.withoutUse.expiresAt := by rw [h]
  exact ⟨hid, hdigest, hexpires⟩

theorem isExpiredAt_withoutUse (r : Record) (now : Instant) :
    r.withoutUse.isExpiredAt now = r.isExpiredAt now := rfl

end Record

namespace Storage

/-- An answer but for the time of the last use of its record. -/
def Call.withoutUse : (c : Call) → c.Answer → c.Answer
  | .store _, a | .findByDigest _, a | .findById _, a => a.map Record.withoutUse
  | .revoke _, a | .touch _, a => a

theorem withoutUse_unexpired {r s : Record} (h : r.withoutUse = s.withoutUse) (now : Instant) :
    (unexpired r now).map Record.withoutUse = (unexpired s now).map Record.withoutUse := by
  have hexpired : r.isExpiredAt now = s.isExpiredAt now := by
    rw [← r.isExpiredAt_withoutUse, h, s.isExpiredAt_withoutUse]
  rw [unexpired, unexpired, hexpired]
  split
  · rfl
  · exact congrArg Except.ok h

namespace Memory

/-- Two stores are the same but for the times of the last use of their records. The index by digests and the
counter are the same, since touches change neither. -/
structure SameButUse (m m' : Memory) : Prop where
  byId : ∀ i : Int64, m.byId[i]?.map Record.withoutUse = m'.byId[i]?.map Record.withoutUse
  byDigest : m.byDigest = m'.byDigest
  nextId : m.nextId = m'.nextId

theorem SameButUse.refl (m : Memory) : m.SameButUse m := ⟨fun _ => rfl, rfl, rfl⟩

variable {m m' m'' : Memory}

theorem SameButUse.symm (h : m.SameButUse m') : m'.SameButUse m :=
  ⟨fun i => (h.byId i).symm, h.byDigest.symm, h.nextId.symm⟩

theorem SameButUse.trans (h : m.SameButUse m') (h' : m'.SameButUse m'') : m.SameButUse m'' :=
  ⟨fun i => (h.byId i).trans (h'.byId i), h.byDigest.trans h'.byDigest, h.nextId.trans h'.nextId⟩

/-- A touch makes no difference but for the last use. Of an id that is not there it makes no difference at
all. -/
theorem SameButUse.touched (m : Memory) (i : Int64) (now : Instant) :
    (m.touch i now).2.SameButUse m := by
  rw [touch]
  split
  · exact .refl m
  · next r hr =>
    refine ⟨fun j => ?_, rfl, rfl⟩
    -- the record is written over in its place, and differs in the last use alone
    change (m.byId.insert i { r with lastUsedAt := some now })[j]?.map _ = _
    rw [Std.ExtTreeMap.getElem?_insert]
    split
    · next hij =>
      obtain rfl : i = j := by simpa using hij
      rw [hr]
      rfl
    · rfl

section

variable (h : m.SameButUse m')

include h

/-- What is under an id is missing in both stores, or the same record but for the last use. So a lookup in
either store takes the same branch. -/
theorem SameButUse.byId_cases (i : Int64) :
    m.byId[i]? = none ∧ m'.byId[i]? = none ∨
      ∃ r s, m.byId[i]? = some r ∧ m'.byId[i]? = some s ∧ r.withoutUse = s.withoutUse := by
  have hi := h.byId i
  cases hr : m.byId[i]? with
  | none =>
    rw [hr] at hi
    exact .inl ⟨rfl, Option.map_eq_none_iff.1 hi.symm⟩
  | some r =>
    rw [hr] at hi
    obtain ⟨s, hs, hsr⟩ := Option.map_eq_some_iff.1 hi.symm
    exact .inr ⟨r, s, rfl, hs, hsr.symm⟩

theorem SameButUse.contains (i : Int64) : m.byId.contains i = m'.byId.contains i := by
  rw [Std.ExtTreeMap.contains_eq_isSome_getElem?, Std.ExtTreeMap.contains_eq_isSome_getElem?]
  rcases h.byId_cases i with ⟨hr, hs⟩ | ⟨r, s, hr, hs, -⟩
  · rw [hr, hs]
  · rw [hr, hs]
    rfl

/-- Keeping the same record, or one that differs in its last use, under an id. -/
theorem SameButUse.insert (i : Int64) {r s : Record} (hrs : r.withoutUse = s.withoutUse)
    (j : Int64) : (m.byId.insert i r)[j]?.map Record.withoutUse =
      (m'.byId.insert i s)[j]?.map Record.withoutUse := by
  rw [Std.ExtTreeMap.getElem?_insert, Std.ExtTreeMap.getElem?_insert]
  split
  · exact congrArg some hrs
  · exact h.byId j

theorem SameButUse.findById (i : Int64) (now : Instant) :
    (m.findById i now).map Record.withoutUse = (m'.findById i now).map Record.withoutUse := by
  rw [Memory.findById, Memory.findById]
  rcases h.byId_cases i with ⟨hr, hs⟩ | ⟨r, s, hr, hs, hrs⟩
  · rw [hr, hs]
  · rw [hr, hs]
    exact withoutUse_unexpired hrs now

theorem SameButUse.store (r : Record) :
    (m.store r).1 = (m'.store r).1 ∧ (m.store r).2.SameButUse (m'.store r).2 := by
  rw [Memory.store, Memory.store, h.byDigest, h.contains, h.nextId]
  -- the checks come out alike, and the same record is kept under the same id
  split
  · exact ⟨rfl, h⟩
  split
  · exact ⟨rfl, h⟩
  split
  · exact ⟨rfl, h⟩
  dsimp only
  generalize (if r.id = 0 then m'.nextId else r.id) = id
  split
  · exact ⟨rfl, h⟩
  · exact ⟨rfl, h.insert id rfl, rfl, rfl⟩

theorem SameButUse.revoke (d : String) :
    (m.revoke d).1 = (m'.revoke d).1 ∧ (m.revoke d).2.SameButUse (m'.revoke d).2 := by
  rw [Memory.revoke, Memory.revoke, h.byDigest]
  split
  · exact ⟨rfl, h⟩
  · next id _ =>
    refine ⟨rfl, fun j => ?_, rfl, h.nextId⟩
    change (m.byId.erase id)[j]?.map _ = (m'.byId.erase id)[j]?.map _
    rw [Std.ExtTreeMap.getElem?_erase, Std.ExtTreeMap.getElem?_erase]
    split
    · rfl
    · exact h.byId j

theorem SameButUse.touch (i : Int64) (now : Instant) :
    (m.touch i now).1 = (m'.touch i now).1 ∧ (m.touch i now).2.SameButUse (m'.touch i now).2 := by
  -- a touch makes no difference in either store, so the two stay the same through it
  refine ⟨?_, (touched m i now).trans (h.trans (touched m' i now).symm)⟩
  rw [Memory.touch, Memory.touch]
  rcases h.byId_cases i with ⟨hr, hs⟩ | ⟨r, s, hr, hs, -⟩
  · rw [hr, hs]
  · rw [hr, hs]

/-- **No answer depends on the last use.** Two stores that differ in nothing else answer alike but for it,
and are left in states that differ in nothing else either. -/
theorem SameButUse.answer (c : Call) (now : Instant) :
    c.withoutUse (m.answer c now).1 = c.withoutUse (m'.answer c now).1 ∧
      (m.answer c now).2.SameButUse (m'.answer c now).2 := by
  cases c with
  | store r => exact ⟨congrArg _ (h.store r).1, (h.store r).2⟩
  | findByDigest d =>
    refine ⟨?_, h⟩
    -- the index of digests is the same in both, and leads to the same id
    change (m.findByDigest d now).map _ = (m'.findByDigest d now).map _
    rw [findByDigest, findByDigest, h.byDigest]
    split
    · rfl
    · exact h.findById _ now
  | findById i => exact ⟨h.findById i now, h⟩
  | revoke d => exact h.revoke d
  | touch i => exact h.touch i now

end

end Memory

end Storage

end AccessTokens
