import AccessTokens.Proofs.Storage.History
import AccessTokens.Storage.Memory

/-!
# The indices of a store in memory

A store in memory keeps its records by id, and beside them an index from digests to ids and a counter of
ids. This file says what holds of the three after every run, and what an answered call does to them.

* `Memory.Sound` is the invariant of the state alone: each record is kept under its own id, the index
  of digests leads to exactly the records that have them, both indices have as many entries, and every
  kept id lies between zero and the counter.
* `Memory.Numbered log` ties the counter to the history: it is one more than the greatest id ever
  stored, counted in the integers, so that it has never wrapped.

A step is opened once, in `Memory.answer_cases`: a call either changes nothing or makes a change that
the state allows (`Memory.Allows`), and then leaves the state with that change applied
(`Memory.apply`). Both invariants are kept by an allowed change (`Sound.apply`, `Numbered.apply`), and
so by every call.
-/

namespace AccessTokens.Storage

open Time (Instant)

/-! ### The counter as an integer -/

theorem toInt_max (a b : Int64) : (max a b).toInt = max a.toInt b.toInt := by
  change (if a ≤ b then b else a).toInt = _
  split
  · next h => rw [Int.max_eq_right (Int64.le_iff_toInt_le.1 h)]
  · next h => rw [Int64.le_iff_toInt_le] at h; omega

/-- Below the greatest id, counting on by one does not wrap. This is what keeps the counter above every id
that was stored. -/
theorem toInt_add_one {a : Int64} (h : a ≠ Int64.maxValue) : (a + 1).toInt = a.toInt + 1 := by
  have hmax : a.toInt ≠ 2 ^ 63 - 1 := by
    rw [← Int64.toInt_maxValue]
    exact fun e => h (Int64.toInt_inj.1 e)
  have hlt := a.toInt_lt
  have hle := a.le_toInt
  have hone : (1 : Int64).toInt = 1 := rfl
  -- the sum is in range, so that reducing it changes nothing
  rw [Int64.toInt_add, hone, Int.bmod_eq_of_le] <;> omega

/-- An id that is neither negative nor missing is positive. -/
theorem toInt_pos {id : Int64} (hneg : ¬ id < 0) (h0 : id ≠ 0) : 0 < id.toInt := by
  have hzero : id.toInt ≠ 0 := fun e => h0 (Int64.toInt_inj.1 e)
  have hge : ¬ id.toInt < 0 := fun e => hneg (Int64.lt_iff_toInt_lt.2 e)
  omega

/-- One more than the greatest id that a history stored, and one if it stored none. Records that are gone
count as well, which is what sets it apart from the ids that are there. -/
def idAfter (log : List Change) : Int :=
  log.foldl (fun n x => match x with | .stored r => max n (r.id.toInt + 1) | _ => n) 1

@[simp] theorem idAfter_concat_stored (log : List Change) (r : Record) :
    idAfter (log ++ [.stored r]) = max (idAfter log) (r.id.toInt + 1) := by
  rw [idAfter, List.foldl_append]
  rfl

@[simp] theorem idAfter_concat_revoked (log : List Change) (digest : String) :
    idAfter (log ++ [.revoked digest]) = idAfter log := by
  rw [idAfter, List.foldl_append]
  rfl

@[simp] theorem idAfter_concat_touched (log : List Change) (id : Int64) (now : Instant) :
    idAfter (log ++ [.touched id now]) = idAfter log := by
  rw [idAfter, List.foldl_append]
  rfl

theorem lt_idAfter_of_mem {log : List Change} {r : Record} (h : .stored r ∈ log) :
    r.id.toInt < idAfter log := by
  induction log using List.reverseRecOn with
  | nil => simp at h
  | append_singleton log x ih =>
    rcases List.mem_append.1 h with h | h
    · -- the greatest id so far is already above, and a change can only raise it
      have := ih h
      cases x with
      | stored r' => rw [idAfter_concat_stored]; omega
      | revoked digest => rwa [idAfter_concat_revoked]
      | touched id now => rwa [idAfter_concat_touched]
    · obtain rfl := List.mem_singleton.1 h
      rw [idAfter_concat_stored]
      omega

namespace Memory

/-! ### Changes of the state -/

/-- The state after a change. It says what a store becomes, and not whether the store would make the change
(`Allows`). -/
def apply (m : Memory) : Change → Memory
  | .stored r =>
    { byId := m.byId.insert r.id r
      byDigest := m.byDigest.insert r.digest r.id
      nextId := max m.nextId (r.id + 1) }
  | .revoked digest => (m.revoke digest).2
  | .touched id now => (m.touch id now).2

/-- The state allows a change: a record to be stored is new by its digest and by its id, which is
positive and not the greatest there is, and what is revoked or touched is there. -/
def Allows (m : Memory) : Change → Prop
  | .stored r => m.byDigest[r.digest]? = none ∧ m.byId[r.id]? = none ∧ 0 < r.id.toInt ∧
      r.id ≠ Int64.maxValue
  | .revoked digest => ∃ id, m.byDigest[digest]? = some id
  | .touched id _ => ∃ r, m.byId[id]? = some r

section View

variable (m : Memory) (i : Int64) (d : String)

@[simp] theorem byId_stored (r : Record) :
    (m.apply (.stored r)).byId[i]? = if r.id = i then some r else m.byId[i]? := by
  simp [apply, Std.ExtTreeMap.getElem?_insert]

@[simp] theorem byDigest_stored (r : Record) :
    (m.apply (.stored r)).byDigest[d]? = if r.digest = d then some r.id else m.byDigest[d]? := by
  simp [apply, Std.ExtTreeMap.getElem?_insert]

variable {m}

theorem revoke_of_some {id : Int64} (h : m.byDigest[d]? = some id) : m.revoke d =
    (.ok (), { m with byId := m.byId.erase id, byDigest := m.byDigest.erase d }) := by
  rw [revoke, h]

theorem byId_revoked {digest : String} {id : Int64} (h : m.byDigest[digest]? = some id) :
    (m.apply (.revoked digest)).byId[i]? = if id = i then none else m.byId[i]? := by
  simp [apply, revoke_of_some digest h, Std.ExtTreeMap.getElem?_erase]

theorem byDigest_revoked {digest : String} {id : Int64} (h : m.byDigest[digest]? = some id) :
    (m.apply (.revoked digest)).byDigest[d]? = if digest = d then none else m.byDigest[d]? := by
  simp [apply, revoke_of_some digest h, Std.ExtTreeMap.getElem?_erase]

variable (m)

@[simp] theorem byId_touched (id : Int64) (now : Instant) :
    (m.apply (.touched id now)).byId[i]? = if id = i then
      m.byId[i]?.map fun r => { r with lastUsedAt := some now } else m.byId[i]? := by
  rw [apply, touch]
  split
  · next h => split <;> simp_all
  · next r h =>
    simp only [Std.ExtTreeMap.getElem?_insert, Std.compare_eq_iff_eq]
    split
    · next hi => subst hi; rw [h]; rfl
    · rfl

@[simp] theorem byDigest_touched (id : Int64) (now : Instant) :
    (m.apply (.touched id now)).byDigest = m.byDigest := by
  rw [apply, touch]
  split <;> rfl

@[simp] theorem nextId_stored (r : Record) :
    (m.apply (.stored r)).nextId = max m.nextId (r.id + 1) := rfl

@[simp] theorem nextId_revoked (digest : String) :
    (m.apply (.revoked digest)).nextId = m.nextId := by
  rw [apply, revoke]
  split <;> rfl

@[simp] theorem nextId_touched (id : Int64) (now : Instant) :
    (m.apply (.touched id now)).nextId = m.nextId := by
  rw [apply, touch]
  split <;> rfl

end View

/-! ### The invariant of the state -/

/-- The indices agree with each other and with the counter. With the counter above all ids, an id that the
store chooses is free without having been looked up. -/
structure Sound (m : Memory) : Prop where
  /-- A record is kept under its own id. -/
  id_eq : ∀ {i : Int64} {r : Record}, m.byId[i]? = some r → r.id = i
  /-- The index of digests leads to the records that have them, and to all of those. -/
  byDigest_iff : ∀ {d : String} {i : Int64},
    m.byDigest[d]? = some i ↔ ∃ r, m.byId[i]? = some r ∧ r.digest = d
  /-- The two indices have as many entries. -/
  size_eq : m.byDigest.size = m.byId.size
  /-- The counter is above zero. -/
  nextId_pos : 0 < m.nextId.toInt
  /-- A kept id is above zero and below the counter. -/
  id_bounds : ∀ {i : Int64} {r : Record},
    m.byId[i]? = some r → 0 < i.toInt ∧ i.toInt < m.nextId.toInt

theorem Sound.empty : Sound Memory.empty where
  id_eq := by simp [Memory.empty]
  byDigest_iff := by simp [Memory.empty]
  size_eq := rfl
  nextId_pos := by decide
  id_bounds := by simp [Memory.empty]

variable {m : Memory}

theorem Sound.nextId_free (h : m.Sound) : m.byId[m.nextId]? = none := by
  rw [Option.eq_none_iff_forall_ne_some]
  intro r hr
  -- a record under the counter would have an id below the counter
  exact absurd (h.id_bounds hr).2 (by omega)

/-- A record that is new by its id and its digest adds one entry to each index. Under any other id and any
other digest the indices are as before, so they agree there as before. -/
theorem Sound.stored (h : m.Sound) {r : Record} (ha : m.Allows (.stored r)) :
    (m.apply (.stored r)).Sound := by
  obtain ⟨hd, hi, hpos, hmax⟩ := ha
  have hnext : (m.apply (.stored r)).nextId.toInt = max m.nextId.toInt (r.id.toInt + 1) := by
    rw [nextId_stored, toInt_max, toInt_add_one hmax]
  refine ⟨?_, ?_, ?_, ?_, ?_⟩
  · intro i s hs
    rw [byId_stored] at hs
    split at hs
    · next hri => rw [← Option.some.inj hs, hri]
    · exact h.id_eq hs
  · intro d i
    rw [byDigest_stored, byId_stored]
    by_cases hrd : r.digest = d
    · -- the index had nothing for this digest, and so no other record has it
      rw [if_pos hrd]
      constructor
      · rintro ⟨⟩
        exact ⟨r, if_pos rfl, hrd⟩
      · rintro ⟨s, hs, hsd⟩
        split at hs
        · next hri => rw [hri]
        · rw [hrd, h.byDigest_iff.2 ⟨s, hs, hsd⟩] at hd
          cases hd
    · rw [if_neg hrd, h.byDigest_iff]
      constructor
      · rintro ⟨s, hs, hsd⟩
        refine ⟨s, ?_, hsd⟩
        rw [if_neg, hs]
        -- the id was free, so the other record is under another one
        rintro rfl
        rw [hi] at hs
        cases hs
      · rintro ⟨s, hs, hsd⟩
        split at hs
        · exact absurd (Option.some.inj hs ▸ hsd) hrd
        · exact ⟨s, hs, hsd⟩
  · -- both indices grow by one entry
    have hd' : r.digest ∉ m.byDigest := by simp [Std.ExtTreeMap.mem_iff_isSome_getElem?, hd]
    have hi' : r.id ∉ m.byId := by simp [Std.ExtTreeMap.mem_iff_isSome_getElem?, hi]
    simp only [apply, Std.ExtTreeMap.size_insert, Std.ExtTreeMap.contains_iff_mem, hd', hi',
      if_false, h.size_eq]
  · -- the counter only grows
    rw [hnext]
    have := h.nextId_pos
    omega
  · intro i s hs
    rw [byId_stored] at hs
    rw [hnext]
    split at hs
    · next hri => subst hri; omega
    · have := h.id_bounds hs
      omega

/-- Revoking takes one entry from each index, and both are of the same record. The id is read off the index
by digests, and the other index has the same record there. -/
theorem Sound.revoked (h : m.Sound) {digest : String} (ha : m.Allows (.revoked digest)) :
    (m.apply (.revoked digest)).Sound := by
  obtain ⟨id, hid⟩ := ha
  obtain ⟨r, hr, hrd⟩ := h.byDigest_iff.1 hid
  refine ⟨?_, ?_, ?_, ?_, ?_⟩
  · intro i s hs
    rw [byId_revoked i hid] at hs
    split at hs
    · cases hs
    · exact h.id_eq hs
  · intro d i
    -- the two indices are looked at from the side of the digest, which is the revoked one or another
    rw [byDigest_revoked d hid, byId_revoked i hid]
    by_cases hd : digest = d
    · -- the only record with this digest is the one that is gone
      rw [if_pos hd]
      refine ⟨by simp, ?_⟩
      rintro ⟨s, hs, hsd⟩
      split at hs
      · cases hs
      · next hne =>
        have := h.byDigest_iff.2 ⟨s, hs, hsd.trans hd.symm⟩
        exact absurd (Option.some.inj (hid.symm.trans this)) hne
    · rw [if_neg hd, h.byDigest_iff]
      constructor
      · rintro ⟨s, hs, hsd⟩
        refine ⟨s, ?_, hsd⟩
        rw [if_neg, hs]
        -- what is gone had the revoked digest, and this record has another one
        rintro rfl
        rw [hr] at hs
        exact hd (hrd.symm.trans (Option.some.inj hs ▸ hsd))
      · rintro ⟨s, hs, hsd⟩
        split at hs
        · cases hs
        · exact ⟨s, hs, hsd⟩
  · -- both indices lose one entry
    have hd' : digest ∈ m.byDigest := Std.ExtTreeMap.mem_iff_isSome_getElem?.2 (by simp [hid])
    have hi' : id ∈ m.byId := Std.ExtTreeMap.mem_iff_isSome_getElem?.2 (by simp [hr])
    simp only [apply, revoke_of_some digest hid, Std.ExtTreeMap.size_erase,
      Std.ExtTreeMap.contains_iff_mem, hd', hi', if_true, h.size_eq]
  · rw [nextId_revoked]
    exact h.nextId_pos
  · intro i s hs
    rw [byId_revoked i hid] at hs
    rw [nextId_revoked]
    split at hs
    · cases hs
    · exact h.id_bounds hs

/-- A touch changes a record in its place, and neither its id nor its digest. So both indices lead to it as
before. -/
theorem Sound.touched (h : m.Sound) (id : Int64) (now : Instant) :
    (m.apply (.touched id now)).Sound := by
  -- whatever is kept afterwards was kept before, up to the time of its last use
  have back : ∀ {i : Int64} {s : Record}, (m.apply (.touched id now)).byId[i]? = some s →
      ∃ r, m.byId[i]? = some r ∧ r.id = s.id ∧ r.digest = s.digest := by
    intro i s hs
    rw [byId_touched] at hs
    split at hs
    · obtain ⟨r, hr, rfl⟩ := Option.map_eq_some_iff.1 hs
      exact ⟨r, hr, rfl, rfl⟩
    · exact ⟨s, hs, rfl, rfl⟩
  refine ⟨?_, ?_, ?_, ?_, ?_⟩
  · intro i s hs
    obtain ⟨r, hr, hid, -⟩ := back hs
    rw [← hid, h.id_eq hr]
  · intro d i
    rw [byDigest_touched, h.byDigest_iff]
    constructor
    · rintro ⟨r, hr, hrd⟩
      rw [byId_touched, hr]
      split
      · exact ⟨_, rfl, hrd⟩
      · exact ⟨r, rfl, hrd⟩
    · rintro ⟨s, hs, hsd⟩
      obtain ⟨r, hr, -, hrd⟩ := back hs
      exact ⟨r, hr, hrd.trans hsd⟩
  · -- writing over a record that is there adds no entry
    rw [byDigest_touched, h.size_eq, apply, touch]
    split
    · rfl
    · next r hr =>
      have : id ∈ m.byId := Std.ExtTreeMap.mem_iff_isSome_getElem?.2 (by simp [hr])
      simp [Std.ExtTreeMap.size_insert, this]
  -- the counter and the bounds of the ids are out of its reach
  · rw [nextId_touched]
    exact h.nextId_pos
  · intro i s hs
    obtain ⟨r, hr, -, -⟩ := back hs
    rw [nextId_touched]
    exact h.id_bounds hr

/-- **Every change that the state allows keeps the indices in agreement.** -/
theorem Sound.apply (h : m.Sound) {x : Change} (ha : m.Allows x) : (m.apply x).Sound := by
  cases x with
  | stored r => exact h.stored ha
  | revoked digest => exact h.revoked ha
  | touched id now => exact h.touched id now

/-! ### What a call does -/

/-- A record whose id is not negative is kept under a positive id, its own or the counter. -/
theorem Sound.chosen_pos (h : m.Sound) {id : Int64} (hneg : ¬ id < 0) :
    0 < (if id = 0 then m.nextId else id).toInt := by
  split
  · exact h.nextId_pos
  · next h0 => exact toInt_pos hneg h0

/-- A record whose id is not taken is kept under an id that is free, its own or the counter. -/
theorem Sound.chosen_free (h : m.Sound) {id : Int64} (hi : ¬ (id ≠ 0 ∧ m.byId.contains id)) :
    m.byId[if id = 0 then m.nextId else id]? = none := by
  split
  · exact h.nextId_free
  · next h0 =>
    refine Std.ExtTreeMap.getElem?_eq_none_of_contains_eq_false ?_
    exact Bool.eq_false_iff.2 fun hc => hi ⟨h0, hc⟩

/-- Storing fails and changes nothing, or keeps the record under its own id, or under the counter if
it has none. -/
theorem Sound.store_cases (h : m.Sound) (r : Record) :
    (∃ e, m.store r = (.error e, m)) ∨
      ∃ id, id = (if r.id = 0 then m.nextId else r.id) ∧ m.Allows (.stored { r with id := id }) ∧
        m.store r = (.ok { r with id := id }, m.apply (.stored { r with id := id })) := by
  rw [store]
  -- three checks, each of which may refuse
  split
  · exact Or.inl ⟨_, rfl⟩
  next hd =>
  split
  · exact Or.inl ⟨_, rfl⟩
  next hneg =>
  split
  · exact Or.inl ⟨_, rfl⟩
  next hi =>
  have hd' : m.byDigest[r.digest]? = none :=
    Std.ExtTreeMap.getElem?_eq_none_of_contains_eq_false (Bool.eq_false_iff.2 hd)
  have hfree := h.chosen_free hi
  have hpos := h.chosen_pos hneg
  dsimp only
  -- from here on it does not matter which way the id was chosen
  generalize (if r.id = 0 then m.nextId else r.id) = id at hfree hpos
  by_cases hmax : id = Int64.maxValue
  · rw [if_pos hmax]
    exact Or.inl ⟨_, rfl⟩
  · rw [if_neg hmax]
    exact Or.inr ⟨id, rfl, ⟨hd', hfree, hpos, hmax⟩, rfl⟩

/-- **What a call does.** It changes nothing, or makes one change that the state allows. Runs of this store
are taken apart with this, and not call by call. -/
theorem Sound.answer_cases (h : m.Sound) (c : Call) (now : Instant) :
    Change.ofAnswer? c now (m.answer c now).1 = none ∧ (m.answer c now).2 = m ∨
      ∃ x, Change.ofAnswer? c now (m.answer c now).1 = some x ∧ m.Allows x ∧
        (m.answer c now).2 = m.apply x := by
  cases c with
  | store r =>
    rw [answer]
    rcases h.store_cases r with ⟨e, he⟩ | ⟨id, -, ha, he⟩
    · rw [he]
      exact Or.inl ⟨rfl, rfl⟩
    · rw [he]
      exact Or.inr ⟨_, rfl, ha, rfl⟩
  -- lookups leave the state and tell of no change, found or not
  | findByDigest d =>
    rw [answer]
    exact Or.inl ⟨by cases m.findByDigest d now <;> rfl, rfl⟩
  | findById i =>
    rw [answer]
    exact Or.inl ⟨by cases m.findById i now <;> rfl, rfl⟩
  | revoke d =>
    rw [answer, revoke]
    split
    · exact Or.inl ⟨rfl, rfl⟩
    · next id hd => exact Or.inr ⟨.revoked d, rfl, ⟨id, hd⟩, by rw [Memory.apply, Memory.revoke, hd]⟩
  | touch i =>
    rw [answer, touch]
    split
    · exact Or.inl ⟨rfl, rfl⟩
    · next r hi => exact Or.inr ⟨.touched i now, rfl, ⟨r, hi⟩, by rw [Memory.apply, Memory.touch, hi]⟩

theorem Sound.digest_of_stored (h : m.Sound) {c : Call} {now : Instant} {s : Record}
    (hx : Change.ofAnswer? c now (m.answer c now).1 = some (.stored s)) :
    ∃ r, c = .store r ∧ s.digest = r.digest := by
  obtain ⟨r, rfl⟩ := (Change.call_of_ofAnswer? hx).1 s rfl
  refine ⟨r, rfl, ?_⟩
  rw [answer] at hx
  rcases h.store_cases r with ⟨e, he⟩ | ⟨id, -, -, he⟩
  · rw [he] at hx
    cases hx
  · rw [he] at hx
    cases hx
    rfl

/-- A property of a history and the state after it that is kept by every allowed change of a sound
state is kept by every call. -/
theorem Sound.answer_of_apply (h : m.Sound) {P : List Change → Memory → Prop} {log : List Change}
    (step : ∀ x, m.Allows x → P (log ++ [x]) (m.apply x)) (hP : P log m) (c : Call)
    (now : Instant) :
    P (log ++ (Change.ofAnswer? c now (m.answer c now).1).toList) (m.answer c now).2 := by
  rcases h.answer_cases c now with ⟨hx, hm⟩ | ⟨x, hx, ha, hm⟩
  -- a call that changed nothing adds nothing to the history
  · rw [hx, hm, Option.toList_none, List.append_nil]
    exact hP
  · rw [hx, hm]
    exact step x ha

/-! ### The counter and the history -/

theorem idAfter_le_concat (log : List Change) (x : Change) :
    idAfter log ≤ idAfter (log ++ [x]) := by
  cases x with
  | stored r =>
    rw [idAfter_concat_stored]
    exact Int.le_max_left _ _
  | revoked digest => exact Int.le_of_eq (idAfter_concat_revoked log digest).symm
  | touched id now => exact Int.le_of_eq (idAfter_concat_touched log id now).symm

/-- The state of the indices and the counter after a history. -/
structure Numbered (log : List Change) (m : Memory) : Prop where
  sound : m.Sound
  /-- The counter is one more than the greatest id that was ever stored. -/
  nextId_eq : m.nextId.toInt = idAfter log
  /-- Every id that was ever stored is above zero. -/
  id_pos : ∀ r, .stored r ∈ log → 0 < r.id.toInt

theorem Numbered.empty : Numbered [] Memory.empty where
  sound := Sound.empty
  nextId_eq := rfl
  id_pos := by simp

/-- An allowed change moves the counter as it moves the greatest id of the history. A change that stores
nothing moves neither. -/
theorem Numbered.apply {log : List Change} (h : m.Numbered log) {x : Change} (ha : m.Allows x) :
    (m.apply x).Numbered (log ++ [x]) where
  sound := h.sound.apply ha
  nextId_eq := by
    cases x with
    | stored r =>
      -- both sides take the maximum with the new id and one, and the store has not taken the greatest id
      rw [nextId_stored, toInt_max, toInt_add_one ha.2.2.2, h.nextId_eq, idAfter_concat_stored]
    | revoked digest => rw [nextId_revoked, h.nextId_eq, idAfter_concat_revoked]
    | touched id now => rw [nextId_touched, h.nextId_eq, idAfter_concat_touched]
  id_pos := by
    intro r hr
    rcases List.mem_append.1 hr with hr | hr
    · exact h.id_pos r hr
    · obtain rfl := List.mem_singleton.1 hr
      exact ha.2.2.1

theorem Numbered.answer {log : List Change} (h : m.Numbered log) (c : Call) (now : Instant) :
    (m.answer c now).2.Numbered
      (log ++ (Change.ofAnswer? c now (m.answer c now).1).toList) :=
  h.sound.answer_of_apply (P := fun log m => m.Numbered log) (fun _ ha => h.apply ha) h c now

theorem run_numbered (asked : List (Call × Instant)) :
    (driver.run asked empty).2.Numbered (driver.run asked empty).1 :=
  driver.run_induction (P := fun log m => m.Numbered log) Numbered.empty
    (fun _ _ c now h => h.answer c now) asked

/-- The counter never goes back: more calls do not lower it, whatever they revoke. This is why an id that
was chosen once is never chosen again. -/
theorem nextId_le_run_append (asked more : List (Call × Instant)) :
    (driver.run asked empty).2.nextId ≤ (driver.run (asked ++ more) empty).2.nextId := by
  induction more using List.reverseRecOn with
  | nil => rw [List.append_nil]; exact Int64.le_refl _
  | append_singleton more x ih =>
    obtain ⟨c, now⟩ := x
    rw [← List.append_assoc, Driver.run_concat]
    refine Int64.le_trans ih ?_
    -- the last call leaves the counter alone, or moves it as it moves the greatest id
    have h := run_numbered (asked ++ more)
    rcases h.sound.answer_cases c now with ⟨-, hm⟩ | ⟨x, -, ha, hm⟩
    · change _ ≤ (Memory.answer c now _).2.nextId
      rw [hm]
      exact Int64.le_refl _
    · change _ ≤ (Memory.answer c now _).2.nextId
      rw [hm, Int64.le_iff_toInt_le, h.nextId_eq, (h.apply ha).nextId_eq]
      exact idAfter_le_concat _ x

/-- **The representation of a store in memory.** After every run, whatever ids and digests were asked
for:

* the index of digests leads from a digest to an id exactly when a record with both is kept under that
  id; every kept record is under its own id and is led to by its own digest; and both indices have as
  many entries;
* every id ever stored is at least one and below the counter. Counted in the integers the counter is
  one more than the greatest id ever stored, and that is no more than the greatest id there is, so the
  counter has not wrapped; and no further calls lower it;
* an id that the store chooses itself is greater than every id it stored before, removed records
  included, and no record is kept under it. -/
theorem indices_agree (asked : List (Call × Instant)) :
    let log := (driver.run asked empty).1
    let m := (driver.run asked empty).2
    ((∀ (d : String) (i : Int64), m.byDigest[d]? = some i ↔
        ∃ r : Record, m.byId[i]? = some r ∧ r.id = i ∧ r.digest = d) ∧
      (∀ (i : Int64) (r : Record), m.byId[i]? = some r →
        r.id = i ∧ m.byDigest[r.digest]? = some i) ∧
      m.byDigest.size = m.byId.size) ∧
    ((∀ r : Record, .stored r ∈ log → 1 ≤ r.id ∧ r.id < m.nextId) ∧
      m.nextId.toInt = idAfter log ∧ idAfter log ≤ Int64.maxValue.toInt ∧
      ∀ more, m.nextId ≤ (driver.run (asked ++ more) empty).2.nextId) ∧
    ∀ (r s : Record) (now : Instant), r.id = 0 → (driver.answer (.store r) now m).1 = .ok s →
      (∀ r' : Record, .stored r' ∈ log → r'.id < s.id) ∧ m.byId[s.id]? = none := by
  intro log m
  have h : m.Numbered log := run_numbered asked
  -- the counter is one more than the greatest id of the history
  have hlt : ∀ r, .stored r ∈ log → r.id < m.nextId := by
    intro r hr
    rw [Int64.lt_iff_toInt_lt, h.nextId_eq]
    exact lt_idAfter_of_mem hr
  refine ⟨⟨?_, ?_, h.sound.size_eq⟩, ⟨?_, h.nextId_eq, ?_, nextId_le_run_append asked⟩, ?_⟩
  · intro d i
    rw [h.sound.byDigest_iff]
    constructor
    · rintro ⟨r, hr, hd⟩
      exact ⟨r, hr, h.sound.id_eq hr, hd⟩
    · rintro ⟨r, hr, -, hd⟩
      exact ⟨r, hr, hd⟩
  · intro i r hr
    exact ⟨h.sound.id_eq hr, h.sound.byDigest_iff.2 ⟨r, hr, rfl⟩⟩
  · intro r hr
    refine ⟨?_, hlt r hr⟩
    have hpos := h.id_pos r hr
    have hone : (1 : Int64).toInt = 1 := rfl
    rw [Int64.le_iff_toInt_le, hone]
    omega
  · -- as a number of 64 bits, the counter is no more than the greatest one
    rw [← h.nextId_eq]
    exact m.nextId.toInt_le
  · intro r s now h0 hs
    -- the store chose the counter, which is above every id and free
    change (m.store r).1 = .ok s at hs
    rcases h.sound.store_cases r with ⟨e, he⟩ | ⟨id, hid, -, he⟩
    · rw [he] at hs
      cases hs
    · rw [he] at hs
      cases hs
      rw [if_pos h0] at hid
      subst hid
      exact ⟨hlt, h.sound.nextId_free⟩

end Memory

end AccessTokens.Storage
