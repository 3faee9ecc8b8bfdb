import AccessTokens.Proofs.Storage.TableIndex
import Mathlib.Data.List.Nodup

/-!
# Ids that come back

A store that chooses an id chooses one above all that it has stored records under, removed ones included.
An id that a record brings with it is only compared with those that are there. So an id comes back when it
is brought again after its record was removed, and in no other way: the ids that a run stored records
under are all different exactly if no call of the run brought an old id (`Driver.ReusesId`).

This is argued once, for every store that gives ids in that manner (`Driver.GivesIds`,
`Driver.GivesIds.nodup_iff`), along the calls of a run, and both stores are shown to be of that kind.
-/

namespace AccessTokens.Storage

open Time (Instant)

variable {σ : Type}

/-! ### Ids that a record brings -/

/-- Only a call that stores gives an id to a record. -/
theorem Change.storedId?_of_not_store {c : Call} (hc : ∀ r, c ≠ .store r) (now : Instant)
    (a : c.Answer) : (Change.ofAnswer? c now a).bind Change.storedId? = none := by
  cases c with
  | store r => exact absurd rfl (hc r)
  | _ => cases a <;> rfl

namespace Driver

variable (d : Driver σ) (s : σ)

/-- A record comes with an id of its own under which a record was stored before, at a time when neither
this id nor its digest is found. -/
def BringsOldId (before : List Change × σ) : Call × Instant → Prop
  | (.store r, now) => r.id ≠ 0 ∧ r.id ∈ storedIds before.1 ∧
    (d.answer (.findById r.id) now before.2).1 = .error .notFound ∧
      (d.answer (.findByDigest r.digest) now before.2).1 = .error .notFound
  | _ => False

/-- Some call of a run brings an old id. -/
def ReusesId (asked : List (Call × Instant)) : Prop :=
  ∃ before c after, asked = before ++ c :: after ∧ d.BringsOldId (d.run before s) c

theorem reusesId_concat_iff {asked : List (Call × Instant)} {c : Call × Instant} :
    d.ReusesId s (asked ++ [c]) ↔ d.ReusesId s asked ∨ d.BringsOldId (d.run asked s) c := by
  constructor
  · rintro ⟨before, c', after, hasked, hc⟩
    rcases List.eq_nil_or_concat after with rfl | ⟨after, last, rfl⟩
    · -- it is the last call
      obtain ⟨rfl, hlast⟩ := List.append_inj' hasked rfl
      obtain rfl : c = c' := by simpa using hlast
      exact Or.inr hc
    · rw [List.concat_eq_append, ← List.cons_append, ← List.append_assoc] at hasked
      obtain ⟨rfl, -⟩ := List.append_inj' hasked rfl
      exact Or.inl ⟨before, c', after, rfl, hc⟩
  · rintro (⟨before, c', after, rfl, hc⟩ | hc)
    · exact ⟨before, c', after ++ [c], by simp, hc⟩
    · exact ⟨asked, c, [], rfl, hc⟩

/-! ### Stores that give ids -/

/-- How a store gives ids after any calls from a first state. An id that it chooses is above all under
which it stored records; a record that brings an id keeps it; and if it was stored before, the record is
taken exactly when neither the id nor the digest is found. -/
structure GivesIds : Prop where
  chosen : ∀ asked (r : Record) now stored, r.id = 0 →
    (d.answer (.store r) now (d.run asked s).2).1 = .ok stored →
      ∀ i ∈ storedIds (d.run asked s).1, i < stored.id
  brought : ∀ asked (r : Record) now stored, r.id ≠ 0 →
    (d.answer (.store r) now (d.run asked s).2).1 = .ok stored → stored.id = r.id
  again : ∀ asked (r : Record) now, r.id ≠ 0 → r.id ∈ storedIds (d.run asked s).1 →
    ((∃ stored, (d.answer (.store r) now (d.run asked s).2).1 = .ok stored) ↔
      (d.answer (.findById r.id) now (d.run asked s).2).1 = .error .notFound ∧
        (d.answer (.findByDigest r.digest) now (d.run asked s).2).1 = .error .notFound)

variable {d s}

/-- One more call brings an old id exactly if it stores a record under one. An id that the store has chosen
is above all the ids of the history, so an old id was brought by the caller. -/
theorem GivesIds.bringsOldId_iff (h : d.GivesIds s) (asked : List (Call × Instant)) (c : Call)
    (now : Instant) : d.BringsOldId (d.run asked s) (c, now) ↔
      ∃ i ∈ (Change.ofAnswer? c now (d.answer c now (d.run asked s).2).1).bind Change.storedId?,
        i ∈ storedIds (d.run asked s).1 := by
  cases c with
  | store r =>
    have hagain := h.again asked r now
    have hchosen := h.chosen asked r now
    have hbrought := h.brought asked r now
    rw [BringsOldId]
    -- what the store is like is in the three facts, so that its answer may be any
    generalize (d.answer (.store r) now (d.run asked s).2).1 = a at hagain hchosen hbrought ⊢
    change Except StorageError Record at a
    cases a with
    | error e =>
      constructor
      · rintro ⟨h0, hmem, hfind⟩
        obtain ⟨stored, hstored⟩ := (hagain h0 hmem).2 hfind
        cases hstored
      · rintro ⟨i, ⟨⟩, -⟩
    | ok stored =>
      have hid : (∃ i ∈ (Change.ofAnswer? (.store r) now (.ok stored)).bind Change.storedId?,
          i ∈ storedIds (d.run asked s).1) ↔ stored.id ∈ storedIds (d.run asked s).1 := by
        simp [Change.ofAnswer?, Change.storedId?]
      rw [hid]
      by_cases h0 : r.id = 0
      · -- an id that the store chose is no old one
        constructor
        · rintro ⟨hne, -⟩
          exact absurd h0 hne
        · intro hmem
          exact absurd (hchosen stored h0 rfl _ hmem) Int64.lt_irrefl
      · rw [hbrought stored h0 rfl]
        constructor
        · rintro ⟨-, hmem, -⟩
          exact hmem
        · intro hmem
          exact ⟨h0, hmem, (hagain h0 hmem).1 ⟨stored, rfl⟩⟩
  | _ =>
    -- no other call stores a record
    rw [Change.storedId?_of_not_store (by simp)]
    simp [BringsOldId]

/-- **No id comes back unless it is brought back.** The ids of a run are all different exactly if none of
its calls brought an old one, for every store that gives ids in this manner. -/
theorem GivesIds.nodup_iff (h : d.GivesIds s) (asked : List (Call × Instant)) :
    (storedIds (d.run asked s).1).Nodup ↔ ¬ d.ReusesId s asked := by
  -- A run with one more call has one more id or not, and brings an old one at the end or before.
  induction asked using List.reverseRecOn with
  | nil =>
    have hnone : ¬ d.ReusesId s [] := by
      rintro ⟨before, c, after, hasked, -⟩
      simp at hasked
    exact ⟨fun _ => hnone, fun _ => List.nodup_nil⟩
  | append_singleton asked x ih =>
    obtain ⟨c, now⟩ := x
    rw [reusesId_concat_iff, not_or, ← ih, h.bringsOldId_iff, run_concat, storedIds_append]
    -- the last call stored under one more id, or under none
    cases (Change.ofAnswer? c now (d.answer c now (d.run asked s).2).1).bind Change.storedId? with
    | none => simp
    | some i =>
      rw [Option.toList_some, ← List.concat_eq_append, List.nodup_concat]
      simp [and_comm]

end Driver

/-! ### The store in memory -/

namespace Memory

variable {m : Memory}

theorem findById_eq_notFound_iff {i : Int64} {now : Instant} :
    m.findById i now = .error .notFound ↔ m.byId[i]? = none := by
  rw [findById]
  cases m.byId[i]? with
  | none => simp
  | some r => simpa using unexpired_ne_notFound r now

theorem Sound.findByDigest_eq_notFound_iff (h : m.Sound) {digest : String} {now : Instant} :
    m.findByDigest digest now = .error .notFound ↔ m.byDigest[digest]? = none := by
  rw [findByDigest]
  cases hd : m.byDigest[digest]? with
  | none => simp
  | some i =>
    -- the index leads to a record that is there
    obtain ⟨r, hr, -⟩ := h.byDigest_iff.1 hd
    have hfound : m.findById i now ≠ .error .notFound := by
      rw [ne_eq, findById_eq_notFound_iff, hr]
      simp
    simpa using hfound

/-- A record that was taken has its own id or the counter for it, and the store allowed it. Only the id may
differ from what was brought. -/
theorem Sound.stored_of_ok (h : m.Sound) {r stored : Record}
    (hstored : (m.store r).1 = .ok stored) :
    stored = { r with id := stored.id } ∧
      stored.id = (if r.id = 0 then m.nextId else r.id) ∧ m.Allows (.stored stored) := by
  rcases h.store_cases r with ⟨e, he⟩ | ⟨id, hid, ha, he⟩
  · rw [he] at hstored
    cases hstored
  · rw [he] at hstored
    obtain rfl := Except.ok.inj hstored
    exact ⟨rfl, hid, ha⟩

/-- A record that brings an id which is free, positive and not the greatest is taken under it, whatever was
stored before. -/
theorem store_of_free {r : Record} (h0 : r.id ≠ 0) (hneg : ¬ r.id < 0) (hmax : r.id ≠ Int64.maxValue)
    (hid : m.byId[r.id]? = none) (hdigest : m.byDigest[r.digest]? = none) :
    (m.store r).1 = .ok r := by
  have hnot : m.byId.contains r.id = false := by
    rw [Std.ExtTreeMap.contains_eq_isSome_getElem?, hid]
    rfl
  have hnew : m.byDigest.contains r.digest = false := by
    rw [Std.ExtTreeMap.contains_eq_isSome_getElem?, hdigest]
    rfl
  rw [store, hnew, hnot, if_neg Bool.false_ne_true, if_neg hneg, if_neg (by simp), if_neg h0]
  dsimp only
  rw [if_neg hmax]

theorem givesIds : driver.GivesIds empty where
  chosen := by
    intro asked r now stored h0 hstored i hi
    have h := run_numbered asked
    obtain ⟨r', hr', rfl⟩ := mem_storedIds_iff.1 hi
    obtain ⟨-, hid, -⟩ := h.sound.stored_of_ok hstored
    -- the store chose its counter
    rw [hid, if_pos h0, Int64.lt_iff_toInt_lt, h.nextId_eq]
    exact lt_idAfter_of_mem hr'
  brought := by
    intro asked r now stored h0 hstored
    obtain ⟨-, hid, -⟩ := (run_numbered asked).sound.stored_of_ok hstored
    exact hid.trans (if_neg h0)
  again := by
    intro asked r now h0 hmem
    have h := run_numbered asked
    obtain ⟨r', hr', hid'⟩ := mem_storedIds_iff.1 hmem
    have hpos := h.id_pos r' hr'
    have hlt := lt_idAfter_of_mem hr'
    rw [hid'] at hpos hlt
    change (∃ stored, (store r (driver.run asked empty).2).1 = .ok stored) ↔
      findById r.id now (driver.run asked empty).2 = .error .notFound ∧
        findByDigest r.digest now (driver.run asked empty).2 = .error .notFound
    -- what is not found is not in the indices, which is all that the store looks at
    rw [findById_eq_notFound_iff, h.sound.findByDigest_eq_notFound_iff]
    constructor
    · rintro ⟨stored, hstored⟩
      obtain ⟨hrecord, hid, hdigest, hfree, -⟩ := h.sound.stored_of_ok hstored
      have hsame : stored = r := by
        rw [hrecord, hid, if_neg h0]
      subst hsame
      exact ⟨hfree, hdigest⟩
    · rintro ⟨hfree, hdigest⟩
      -- an id that was stored before is positive, and the counter is above it
      have hneg : ¬ r.id < 0 := by
        rw [Int64.lt_iff_toInt_lt]
        exact Int.not_lt.2 (Int.le_of_lt hpos)
      have hmax : r.id ≠ Int64.maxValue := by
        intro hmax
        rw [← h.nextId_eq, hmax, Int64.toInt_maxValue] at hlt
        have := (driver.run asked empty).2.nextId.toInt_lt
        omega
      exact ⟨r, store_of_free h0 hneg hmax hfree hdigest⟩

end Memory

/-! ### The database -/

namespace Database

theorem givesIds : driver.GivesIds empty where
  chosen := by
    intro asked r now stored h0 hstored i hi
    obtain ⟨t, ht, h⟩ := run_numbered asked
    obtain ⟨r', hr', rfl⟩ := mem_storedIds_iff.1 hi
    rw [ht] at hstored
    obtain ⟨-, hid, -⟩ := h.sound.stored_of_ok hstored
    -- the table chose the id after its greatest, which is after all of the history
    rw [if_pos h0, h.greatestId_eq] at hid
    rw [Int64.lt_iff_toInt_lt, hid]
    exact lt_idAfter_of_mem hr'
  brought := by
    intro asked r now stored h0 hstored
    obtain ⟨t, ht, h⟩ := run_numbered asked
    rw [ht] at hstored
    obtain ⟨-, hid, -⟩ := h.sound.stored_of_ok hstored
    exact Int64.toInt_inj.1 (hid.trans (if_neg h0))
  again := by
    intro asked r now h0 hmem
    obtain ⟨t, ht, h⟩ := run_numbered asked
    obtain ⟨r', hr', hid'⟩ := mem_storedIds_iff.1 hmem
    have hpos := h.id_pos r' hr'
    rw [hid'] at hpos
    rw [ht]
    change (∃ stored, (store r ⟨some t⟩).1 = .ok stored) ↔
      found now (t.rows[r.id]?.map fun row => (r.id, row)) = .error .notFound ∧
        found now (t.find? r.digest) = .error .notFound
    -- a row that is there is found, even if it cannot be read or is expired
    rw [found_eq_notFound_iff, found_eq_notFound_iff, Option.map_eq_none_iff]
    constructor
    · rintro ⟨stored, hstored⟩
      obtain ⟨hrecord, hid, ⟨hfree, hdigest, -⟩, -⟩ := h.sound.stored_of_ok hstored
      have hsame : stored = r := by
        rw [hrecord, Int64.toInt_inj.1 (hid.trans (if_neg h0))]
      subst hsame
      exact ⟨hfree, hdigest⟩
    · rintro ⟨hfree, hdigest⟩
      have hneg : ¬ r.id < 0 := by
        rw [Int64.lt_iff_toInt_lt]
        exact Int.not_lt.2 (Int.le_of_lt hpos)
      have hput : t.insert (if r.id = 0 then none else some r.id) (Row.ofRecord r) = _ :=
        (congrArg (t.insert · _) (if_neg h0)).trans (Table.insert_of_free hfree hdigest)
      exact ⟨_, congrArg Prod.fst (store_of_inserted hneg hput)⟩

end Database

/-! ### Both stores -/

/-- **When an id comes back.** In every run of a store in memory or of a database from the empty one, the
ids under which records were stored are all different exactly if no call brought an id that had been
stored before and was not found any more, with a digest that was not found. An id that the store itself
chooses is always greater than every id that it stored a record under before, removed records included. -/
theorem ids_return_only_if_brought (asked : List (Call × Instant)) :
    ((storedIds (Memory.driver.run asked Memory.empty).1).Nodup ↔
        ¬ Memory.driver.ReusesId Memory.empty asked) ∧
      ((storedIds (Database.driver.run asked Database.empty).1).Nodup ↔
        ¬ Database.driver.ReusesId Database.empty asked) ∧
      ∀ (r : Record) (now : Instant), r.id = 0 →
        (∀ stored : Record,
          (Memory.driver.answer (.store r) now (Memory.driver.run asked Memory.empty).2).1 =
              .ok stored →
            ∀ i ∈ storedIds (Memory.driver.run asked Memory.empty).1, i < stored.id) ∧
          ∀ stored : Record,
            (Database.driver.answer (.store r) now
                (Database.driver.run asked Database.empty).2).1 = .ok stored →
              ∀ i ∈ storedIds (Database.driver.run asked Database.empty).1, i < stored.id := by
  refine ⟨Memory.givesIds.nodup_iff asked, Database.givesIds.nodup_iff asked, ?_⟩
  intro r now h0
  exact ⟨fun stored => Memory.givesIds.chosen asked r now stored h0,
    fun stored => Database.givesIds.chosen asked r now stored h0⟩

/-- A record is stored under an id of its own and removed, and another one is stored under this id. -/
def broughtBack : List (Call × Instant) :=
  let record (digest : String) := { Record.fresh 1 digest none [] .epoch none with id := 5 }
  [(.store (record "a"), .epoch), (.revoke "a", .epoch), (.store (record "b"), .epoch)]

theorem ids_return_broughtBack :
    ¬ (storedIds (Memory.driver.run broughtBack Memory.empty).1).Nodup ∧
      ¬ (storedIds (Database.driver.run broughtBack Database.empty).1).Nodup := by
  have hmemory : storedIds (Memory.driver.run broughtBack Memory.empty).1 = [5, 5] := by
    decide +kernel
  have hdatabase : storedIds (Database.driver.run broughtBack Database.empty).1 = [5, 5] := by
    decide +kernel
  rw [hmemory, hdatabase]
  decide

end AccessTokens.Storage
