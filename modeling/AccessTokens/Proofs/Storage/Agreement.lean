import AccessTokens.Proofs.Storage.MemoryIndex
import AccessTokens.Proofs.Storage.Table

/-!
# The two stores agree

A caller cannot tell a store in memory from a database by its answers (`answers_agree`): asked the same
calls at the same readings of the clock, both give the same record or an error of the same kind
(`Alike`). Two things are asked of the run. A row keeps every instant that goes in: its year has four
digits, and if it is in a leap second, then at the end of a minute. And no record is stored under the
greatest id there is, which a database would store and a store in memory would not. Without the first
the answers may differ, even for years of four digits (`leap_second_divides_stores`).

The proof is a simulation. `Table.Mirrors` relates a table to a store in memory: both have the same
records under the same ids, and the greatest id of the table is one less than the counter of the store.
The index of digests has no counterpart in the table, which looks through its rows instead; that both
find the same record is where the invariant of the store (`Memory.Sound`) comes in. Each call keeps the
relation and answers alike (`Mirrors.answer`), with one exception: a negative id is refused by both, but
a store in memory looks at the digest first and so may give another reason.
-/

namespace AccessTokens.Storage

open Time (Instant)

/-! ### Answers alike -/

/-- The same value, or errors of the same kind in whatever words. Only kinds that both stores have are
listed, so an error of the engine is alike to nothing. -/
inductive Alike {α : Type} : Except StorageError α → Except StorageError α → Prop
  | ok (a : α) : Alike (.ok a) (.ok a)
  | notFound : Alike (.error .notFound) (.error .notFound)
  | expired : Alike (.error .expired) (.error .expired)
  | duplicate (text text' : String) : Alike (.error (.duplicate text)) (.error (.duplicate text'))
  | database (text text' : String) : Alike (.error (.database text)) (.error (.database text'))

/-- Two answers to a call are alike. The words of an error are not compared: each store has its own. -/
def Call.Alike : (c : Call) → c.Answer → c.Answer → Prop
  | .store _, a, b | .findByDigest _, a, b | .findById _, a, b => Storage.Alike a b
  | .revoke _, a, b | .touch _, a, b => Storage.Alike a b

/-- A row keeps every instant that a call would have stored. Lookups and revocations store no instant, and
so they are free of this. -/
def Call.ReadsBack : Call → Instant → Prop
  | .store r, _ => r.ReadsBack
  | .touch _, now => now.ReadsBack
  | _, _ => True

theorem alike_unexpired (r : Record) (now : Instant) :
    Alike (unexpired r now) (unexpired r now) := by
  rw [unexpired]
  split
  · exact .expired
  · exact .ok r

/-- A store in memory refuses a negative id, but looks at the digest first. This is where the two stores may
differ in the kind of the error. -/
theorem Memory.store_of_negative {r : Record} (hneg : r.id < 0) (m : Memory) :
    m.store r = (.error (if m.byDigest.contains r.digest then
      .duplicate "token digest already stored"
      else .database ("invalid token id " ++ Decimal.text r.id)), m) := by
  rw [store, if_pos hneg]
  split <;> rfl

theorem Database.store_of_negative {r : Record} (hneg : r.id < 0) (d : Database) :
    d.store r = (.error (.database ("invalid token id " ++ Decimal.text r.id)), d) := by
  rw [store, if_pos hneg]

/-! ### The relation -/

/-- A table has the rows of the records of a store in memory, and chooses the ids that it chooses. Each row
is the record as text, so what a lookup finds in the one it finds in the other. -/
structure Table.Mirrors (t : Table) (m : Memory) : Prop where
  sound : m.Sound
  rows_eq : ∀ i : Int64, t.rows[i]? = m.byId[i]?.map Row.ofRecord
  readsBack : ∀ {i : Int64} {r : Record}, m.byId[i]? = some r → r.ReadsBack
  nextId_eq : m.nextId.toInt = t.greatestId.toInt + 1

namespace Table.Mirrors

variable {t : Table} {m : Memory}

theorem empty : Table.Mirrors {} Memory.empty where
  sound := Memory.Sound.empty
  rows_eq := by simp [Memory.empty]
  readsBack := by simp [Memory.empty]
  nextId_eq := rfl

variable (h : t.Mirrors m)

include h

/-- A table that mirrors a store is never full: the counter of the store is an id above its ids. -/
theorem greatestId_ne : t.greatestId ≠ Int64.maxValue := by
  intro hmax
  -- it would be one more than the greatest number of 64 bits
  have hnext := h.nextId_eq
  have hle := m.nextId.toInt_lt
  rw [hmax, Int64.toInt_maxValue] at hnext
  omega

theorem greatestId_add_one : t.greatestId + 1 = m.nextId := by
  rw [← Int64.toInt_inj, toInt_add_one h.greatestId_ne, h.nextId_eq]

theorem contains_rows (i : Int64) : t.rows.contains i = m.byId.contains i := by
  rw [Std.ExtTreeMap.contains_eq_isSome_getElem?, Std.ExtTreeMap.contains_eq_isSome_getElem?,
    h.rows_eq, Option.isSome_map]

/-- The table finds, by searching its rows, the record that the index of the store leads to. There is only
one row with this digest, as the store has one record with it. -/
theorem find?_of_byId {i : Int64} {r : Record} (hr : m.byId[i]? = some r) :
    t.find? r.digest = some (i, Row.ofRecord r) := by
  have hrow : t.rows[i]? = some (Row.ofRecord r) := by
    rw [h.rows_eq, hr]
    rfl
  obtain ⟨⟨j, row⟩, hfind⟩ := Option.isSome_iff_exists.1 (isSome_find? hrow)
  obtain ⟨hj, hd⟩ := rows_of_find? hfind
  -- whatever was found is the row of a record with this digest, and there is only one
  have hj' := hj
  rw [h.rows_eq] at hj'
  obtain ⟨s, hs, rfl⟩ := Option.map_eq_some_iff.1 hj'
  have hindex : m.byDigest[r.digest]? = some j := h.sound.byDigest_iff.2 ⟨s, hs, hd⟩
  rw [h.sound.byDigest_iff.2 ⟨r, hr, rfl⟩] at hindex
  obtain rfl := Option.some.inj hindex
  have hrows := Option.some.inj (hrow.symm.trans hj)
  rw [hrows]
  exact hfind

theorem find?_eq_none {d : String} (hd : m.byDigest[d]? = none) : t.find? d = none := by
  rw [Option.eq_none_iff_forall_ne_some]
  -- a row with the digest would be the row of a record that has it, to which the index leads
  rintro ⟨j, row⟩ hfind
  obtain ⟨hj, hrow⟩ := rows_of_find? hfind
  rw [h.rows_eq] at hj
  obtain ⟨s, hs, rfl⟩ := Option.map_eq_some_iff.1 hj
  rw [h.sound.byDigest_iff.2 ⟨s, hs, hrow⟩] at hd
  cases hd

theorem isSome_find?_eq (d : String) : (t.find? d).isSome = m.byDigest.contains d := by
  rw [Std.ExtTreeMap.contains_eq_isSome_getElem?]
  cases hd : m.byDigest[d]? with
  | none => rw [h.find?_eq_none hd]; rfl
  | some i =>
    obtain ⟨r, hr, rfl⟩ := h.sound.byDigest_iff.1 hd
    rw [h.find?_of_byId hr]
    rfl

/-! ### One more change -/

/-- A record that the store allows goes into both under the same id. Its row must keep its instants, or the
table would not hold the same record. -/
theorem stored {r : Record} (ha : m.Allows (.stored r)) (hr : r.ReadsBack) :
    (t.apply (.stored r)).Mirrors (m.apply (.stored r)) where
  sound := h.sound.stored ha
  rows_eq := by
    intro i
    -- the same id is new in both, and the others are untouched
    rw [rows_stored, Memory.byId_stored, h.rows_eq]
    split <;> rfl
  readsBack := by
    intro i s hs
    rw [Memory.byId_stored] at hs
    split at hs
    · exact Option.some.inj hs ▸ hr
    · exact h.readsBack hs
  nextId_eq := by
    have hnext := h.nextId_eq
    -- both counters move to the new id if it is beyond them
    have hmax : (t.apply (.stored r)).greatestId = max t.greatestId r.id := rfl
    rw [Memory.nextId_stored, hmax, toInt_max, toInt_max, toInt_add_one ha.2.2.2]
    omega

theorem revoked {digest : String} (ha : m.Allows (.revoked digest)) :
    (t.apply (.revoked digest)).Mirrors (m.apply (.revoked digest)) where
  sound := h.sound.revoked ha
  rows_eq := by
    intro i
    obtain ⟨id, hid⟩ := ha
    rw [rows_revoked, Memory.byId_revoked i hid, h.rows_eq]
    cases hr : m.byId[i]? with
    | none => simp
    | some r =>
      -- the record has this digest exactly when the index leads to it
      by_cases hd : r.digest = digest
      · have hindex := h.sound.byDigest_iff.2 ⟨r, hr, hd⟩
        rw [hid] at hindex
        rw [if_pos (Option.some.inj hindex), Option.map_some, Option.filter_some, if_neg]
        · rfl
        · simp [Row.ofRecord, hd]
      · rw [if_neg, Option.map_some, Option.filter_some, if_pos]
        · simp [Row.ofRecord, hd]
        · -- the id that is gone had the revoked digest
          rintro rfl
          obtain ⟨s, hs, hsd⟩ := h.sound.byDigest_iff.1 hid
          rw [hr] at hs
          exact hd (Option.some.inj hs ▸ hsd)
  readsBack := by
    intro i s hs
    obtain ⟨id, hid⟩ := ha
    rw [Memory.byId_revoked i hid] at hs
    split at hs
    · cases hs
    · exact h.readsBack hs
  nextId_eq := by
    rw [Memory.nextId_revoked]
    exact h.nextId_eq

theorem touched (id : Int64) {now : Instant} (hnow : now.ReadsBack) :
    (t.apply (.touched id now)).Mirrors (m.apply (.touched id now)) where
  sound := h.sound.touched id now
  rows_eq := by
    intro i
    rw [rows_touched, Memory.byId_touched, h.rows_eq]
    split
    · rw [Option.map_map, Option.map_map]
      rfl
    · rfl
  readsBack := by
    intro i s hs
    rw [Memory.byId_touched] at hs
    split at hs
    · -- only the time of the last use is new, and it is the clock
      obtain ⟨r, hr, rfl⟩ := Option.map_eq_some_iff.1 hs
      have hp := h.readsBack hr
      exact ⟨hp.createdAt, hp.expiresAt, fun t ht => Option.some.inj ht ▸ hnow⟩
    · exact h.readsBack hs
  nextId_eq := by
    rw [Memory.nextId_touched]
    exact h.nextId_eq

/-! ### Calls -/

/-- A row goes into the table unless its id or its digest is taken in the store. The table looks at the id
first and the store at the digest; both refusals come to errors of one kind, so the order does not show. -/
theorem insert_eq (id : Int64) (row : Row) :
    t.insert (if id = 0 then none else some id) row =
      let chosen := if id = 0 then m.nextId else id
      if m.byId.contains chosen then .error .idTaken
      else if m.byDigest.contains row.digest then .error .digestTaken
      else .ok (chosen,
        { rows := t.rows.insert chosen row, greatestId := max t.greatestId chosen }) := by
  have hchosen : (if id = 0 then none else some id : Option Int64).getD (t.greatestId + 1) =
      if id = 0 then m.nextId else id := by
    rw [h.greatestId_add_one]
    split <;> rfl
  -- the table cannot be full, so it goes on to look at the id and then at the digest
  rw [Table.insert, if_neg fun hfull => h.greatestId_ne hfull.2]
  dsimp only
  rw [hchosen, h.contains_rows, h.isSome_find?_eq]

/-- Storing under an id that is not negative fails in both for the same reason, or stores the same
record in both. -/
theorem store {r : Record} (hneg : ¬ r.id < 0)
    (hfit : ∀ s, (Database.store r ⟨some t⟩).1 = .ok s → s.id ≠ Int64.maxValue) :
    (∃ e e', Alike (.error e : Except StorageError Record) (.error e') ∧
        m.store r = (.error e, m) ∧ Database.store r ⟨some t⟩ = (.error e', ⟨some t⟩)) ∨
      ∃ id, m.Allows (.stored { r with id := id }) ∧
        m.store r = (.ok { r with id := id }, m.apply (.stored { r with id := id })) ∧
        Database.store r ⟨some t⟩ =
          (.ok { r with id := id }, ⟨some (t.apply (.stored { r with id := id }))⟩) := by
  have hinsert := h.insert_eq r.id (Row.ofRecord r)
  have hdigest : (Row.ofRecord r).digest = r.digest := rfl
  dsimp only at hinsert
  rw [hdigest] at hinsert
  -- what the table makes of the row is decided case by case as in the store
  generalize hput : t.insert (if r.id = 0 then none else some r.id) (Row.ofRecord r) = put at hinsert
  by_cases hd : m.byDigest.contains r.digest
  · -- the table looks at the id first, but a taken id is the same kind of error
    left
    rw [Memory.store, if_pos hd]
    by_cases hi : m.byId.contains (if r.id = 0 then m.nextId else r.id)
    · rw [if_pos hi] at hinsert
      exact ⟨_, _, .duplicate _ _, rfl, Database.store_of_refused hneg (hput.trans hinsert)⟩
    · rw [if_neg hi, if_pos hd] at hinsert
      exact ⟨_, _, .duplicate _ _, rfl, Database.store_of_refused hneg (hput.trans hinsert)⟩
  rw [if_neg hd] at hinsert
  by_cases hi : r.id ≠ 0 ∧ m.byId.contains r.id
  -- an id that was brought and is taken is a duplicate in both
  · left
    rw [if_neg hi.1, if_pos hi.2] at hinsert
    rw [Memory.store, if_neg hd, if_neg hneg, if_pos hi]
    exact ⟨_, _, .duplicate _ _, rfl, Database.store_of_refused hneg (hput.trans hinsert)⟩
  -- nothing stands against the record, unless its id is the greatest there is
  have hfree := h.sound.chosen_free hi
  have hpos := h.sound.chosen_pos hneg
  rw [Memory.store, if_neg hd, if_neg hneg, if_neg hi]
  dsimp only
  generalize (if r.id = 0 then m.nextId else r.id) = id at hinsert hfree hpos ⊢
  have hnot : m.byId.contains id = false := by
    rw [Std.ExtTreeMap.contains_eq_isSome_getElem?, hfree]
    rfl
  rw [hnot, if_neg Bool.false_ne_true] at hinsert
  have hdb := Database.store_of_inserted hneg (hput.trans hinsert)
  have hmax : id ≠ Int64.maxValue := hfit _ (congrArg Prod.fst hdb)
  have hd' : m.byDigest[r.digest]? = none :=
    Std.ExtTreeMap.getElem?_eq_none_of_contains_eq_false (Bool.eq_false_iff.2 hd)
  rw [if_neg hmax]
  exact Or.inr ⟨id, ⟨hd', hfree, hpos, hmax⟩, rfl, hdb⟩

/-- Looking up by an id comes to the same record in both, and both then look at the expiry. The row is read
as the record, since each of its instants reads back. -/
theorem findById (i : Int64) (now : Instant) :
    Alike (m.findById i now) (Database.findById i now ⟨some t⟩) := by
  rw [Memory.findById, Database.findById]
  dsimp only
  rw [h.rows_eq]
  cases hr : m.byId[i]? with
  | none => exact .notFound
  | some r =>
    have hi := h.sound.id_eq hr
    subst hi
    -- the row reads back as the record, and both look at the expiry
    change Alike (unexpired r now) (Database.found now (some (r.id, Row.ofRecord r)))
    rw [Database.found_ofRecord (h.readsBack hr)]
    exact alike_unexpired r now

theorem findByDigest (d : String) (now : Instant) :
    Alike (m.findByDigest d now) (Database.findByDigest d now ⟨some t⟩) := by
  rw [Memory.findByDigest, Database.findByDigest]
  dsimp only
  cases hd : m.byDigest[d]? with
  | none =>
    rw [h.find?_eq_none hd]
    exact .notFound
  | some i =>
    -- the table finds the row of the very record that the index leads to
    obtain ⟨r, hr, rfl⟩ := h.sound.byDigest_iff.1 hd
    have hi := h.sound.id_eq hr
    subst hi
    rw [h.find?_of_byId hr, Database.found_ofRecord (h.readsBack hr)]
    dsimp only
    rw [Memory.findById, hr]
    exact alike_unexpired r now

theorem revoke (d : String) :
    Alike (m.revoke d).1 (Database.revoke d ⟨some t⟩).1 ∧
      ∃ t', (Database.revoke d ⟨some t⟩).2 = ⟨some t'⟩ ∧ t'.Mirrors (m.revoke d).2 := by
  rw [Database.revoke]
  dsimp only
  rw [h.isSome_find?_eq, Std.ExtTreeMap.contains_eq_isSome_getElem?]
  cases hd : m.byDigest[d]? with
  | none =>
    rw [Memory.revoke, hd]
    exact ⟨.notFound, t, rfl, h⟩
  -- both take away the one record with the digest
  | some i =>
    have h' := h.revoked ⟨i, hd⟩
    rw [if_pos (by rfl), Memory.revoke_of_some d hd]
    rw [Memory.apply, Memory.revoke_of_some d hd] at h'
    exact ⟨.ok (), _, rfl, h'⟩

theorem touch (i : Int64) {now : Instant} (hnow : now.ReadsBack) :
    Alike (m.touch i now).1 (Database.touch i now ⟨some t⟩).1 ∧
      ∃ t', (Database.touch i now ⟨some t⟩).2 = ⟨some t'⟩ ∧ t'.Mirrors (m.touch i now).2 := by
  have h' := h.touched i hnow
  rw [Memory.apply] at h'
  rw [Database.touch]
  dsimp only
  rw [h.contains_rows, Std.ExtTreeMap.contains_eq_isSome_getElem?]
  cases hr : m.byId[i]? with
  | none =>
    rw [Memory.touch, hr]
    exact ⟨.notFound, t, rfl, h⟩
  | some r =>
    rw [if_pos (by rfl)]
    refine ⟨?_, _, rfl, h'⟩
    rw [Memory.touch, hr]
    exact .ok ()

/-- **A call keeps the relation and is answered alike**, unless it would store a negative id under a
digest that is taken. -/
theorem answer {c : Call} {now : Instant} (hback : c.ReadsBack now)
    (hfit : ∀ s : Record, Change.ofAnswer? c now (Database.answer c now ⟨some t⟩).1 = some (.stored s) →
      s.id ≠ Int64.maxValue) :
    (∃ t', (Database.answer c now ⟨some t⟩).2 = ⟨some t'⟩ ∧ t'.Mirrors (m.answer c now).2) ∧
      ((¬ ∃ r, c = .store r ∧ r.id < 0 ∧ m.byDigest.contains r.digest) →
        c.Alike (m.answer c now).1 (Database.answer c now ⟨some t⟩).1) := by
  cases c with
  | store r =>
    change (∃ t', (Database.store r ⟨some t⟩).2 = ⟨some t'⟩ ∧ t'.Mirrors (m.store r).2) ∧
      (_ → Alike (m.store r).1 (Database.store r ⟨some t⟩).1)
    by_cases hneg : r.id < 0
    · -- both refuse, and the reason is the same unless the digest is taken
      rw [Memory.store_of_negative hneg, Database.store_of_negative hneg]
      refine ⟨⟨t, rfl, h⟩, fun hfree => ?_⟩
      rw [if_neg fun hd => hfree ⟨r, rfl, hneg, hd⟩]
      exact .database _ _
    · have hfit' : ∀ s, (Database.store r ⟨some t⟩).1 = .ok s → s.id ≠ Int64.maxValue := by
        intro s hs
        refine hfit s ?_
        rw [Database.answer, hs]
        rfl
      rcases h.store hneg hfit' with ⟨e, e', he, hm, hdb⟩ | ⟨id, ha, hm, hdb⟩
      · rw [hm, hdb]
        exact ⟨⟨t, rfl, h⟩, fun _ => he⟩
      · rw [hm, hdb]
        have hr : ({ r with id := id } : Record).ReadsBack := ⟨hback.1, hback.2, hback.3⟩
        exact ⟨⟨_, rfl, h.stored ha hr⟩, fun _ => .ok _⟩
  | findByDigest d => exact ⟨⟨t, rfl, h⟩, fun _ => h.findByDigest d now⟩
  | findById i => exact ⟨⟨t, rfl, h⟩, fun _ => h.findById i now⟩
  | revoke d => exact ⟨(h.revoke d).2, fun _ => (h.revoke d).1⟩
  | touch i => exact ⟨(h.touch i hback).2, fun _ => (h.touch i hback).1⟩

end Table.Mirrors

/-! ### Runs -/

/-- After the same calls, the table of the database mirrors the store in memory. The induction takes the
last call off, because what may be stored is bounded by the history of the whole run. -/
theorem run_mirrors (asked : List (Call × Instant))
    (hback : ∀ c now, (c, now) ∈ asked → c.ReadsBack now)
    (hfit : ∀ s : Record, .stored s ∈ (Database.driver.run asked Database.empty).1 →
      s.id ≠ Int64.maxValue) :
    ∃ t, (Database.driver.run asked Database.empty).2 = ⟨some t⟩ ∧
      t.Mirrors (Memory.driver.run asked Memory.empty).2 := by
  induction asked using List.reverseRecOn with
  | nil => exact ⟨_, rfl, Table.Mirrors.empty⟩
  | append_singleton asked x ih =>
    obtain ⟨c, now⟩ := x
    rw [Driver.run_concat, Driver.run_concat] at *
    -- the calls before the last one store no more than the whole run
    obtain ⟨t, ht, h⟩ := ih (fun c now hc => hback c now (List.mem_append_left _ hc))
      (fun s hs => hfit s (List.mem_append_left _ hs))
    rw [ht] at hfit ⊢
    have hc := hback c now (by simp)
    refine (h.answer hc ?_).1
    intro s hs
    refine hfit s (List.mem_append_right _ ?_)
    change .stored s ∈ (Change.ofAnswer? c now (Database.answer c now ⟨some t⟩).1).toList
    rw [hs]
    simp

/-- **The two stores agree.** A store in memory and a database both start empty and are asked the same
calls at the same readings of the clock. If a row keeps every instant that the calls would have stored,
and no record is stored under the greatest id, then every call of the run is answered alike by both, except
that a negative id with a digest that is taken may be refused for different reasons; and a record with a
negative id is refused by both and leaves both as they were. -/
theorem answers_agree (asked : List (Call × Instant))
    (hback : ∀ c now, (c, now) ∈ asked → c.ReadsBack now)
    (hfit : ∀ s : Record, .stored s ∈ (Database.driver.run asked Database.empty).1 →
      s.id ≠ Int64.maxValue) :
    ∀ before c now after, asked = before ++ (c, now) :: after →
      let m := (Memory.driver.run before Memory.empty).2
      let d := (Database.driver.run before Database.empty).2
      ((¬ ∃ r, c = .store r ∧ r.id < 0 ∧ m.byDigest.contains r.digest) →
        c.Alike (Memory.driver.answer c now m).1 (Database.driver.answer c now d).1) ∧
      ∀ r, c = .store r → r.id < 0 →
        (∃ e, Memory.driver.answer (.store r) now m = (.error e, m)) ∧
          ∃ e, Database.driver.answer (.store r) now d = (.error e, d) := by
  intro before c now after hasked m d
  subst hasked
  rw [List.append_cons, Driver.run_append, Driver.run_concat] at hfit
  obtain ⟨t, ht, h⟩ := run_mirrors before (fun c now hc => hback c now (List.mem_append_left _ hc))
    fun s hs => hfit s (List.mem_append_left _ (List.mem_append_left _ hs))
  change t.Mirrors m at h
  change d = ⟨some t⟩ at ht
  constructor
  · rw [ht]
    refine (h.answer (hback c now (by simp)) ?_).2
    -- what this call stores is in the history of the whole run
    intro s hs
    refine hfit s (List.mem_append_left _ (List.mem_append_right _ ?_))
    change .stored s ∈ (Change.ofAnswer? c now (Database.answer c now d).1).toList
    rw [ht, hs]
    simp
  · rintro r rfl hneg
    exact ⟨⟨_, Memory.store_of_negative hneg m⟩, _, Database.store_of_negative hneg d⟩

/-- A record that expires at once and has no id yet. -/
def shortLived : Record where
  id := 0
  userId := 7
  digest := "d"
  name := none
  abilities := "*"
  createdAt := .epoch
  expiresAt := some .epoch
  lastUsedAt := none

/-- The record is stored, used, found again and revoked. -/
def oneLife : List (Call × Instant) :=
  [(.store shortLived, .epoch), (.touch 1, .epoch), (.findByDigest "d", .epoch),
    (.revoke "d", .epoch)]

theorem answers_agree_oneLife :
    (∀ c now, (c, now) ∈ oneLife → c.ReadsBack now) ∧
      (∀ s : Record, .stored s ∈ (Database.driver.run oneLife Database.empty).1 →
        s.id ≠ Int64.maxValue) ∧
      Call.Alike (.findByDigest "d")
        (Memory.driver.answer (.findByDigest "d") .epoch
          (Memory.driver.run (oneLife.take 2) Memory.empty).2).1
        (Database.driver.answer (.findByDigest "d") .epoch
          (Database.driver.run (oneLife.take 2) Database.empty).2).1 := by
  have hepoch : Instant.epoch.ReadsBack := by decide +kernel
  have hback : ∀ c now, (c, now) ∈ oneLife → c.ReadsBack now := by
    intro c now hc
    simp only [oneLife, List.mem_cons, Prod.mk.injEq, List.not_mem_nil, or_false] at hc
    rcases hc with ⟨rfl, rfl⟩ | ⟨rfl, rfl⟩ | ⟨rfl, rfl⟩ | ⟨rfl, rfl⟩
    · exact ⟨hepoch, by rintro _ ⟨⟩; exact hepoch, by rintro _ ⟨⟩⟩
    · exact hepoch
    · trivial
    · trivial
  have hlog : (Database.driver.run oneLife Database.empty).1 =
      [.stored { shortLived with id := 1 }, .touched 1 .epoch, .revoked "d"] := by
    decide +kernel
  have hfit : ∀ s : Record, .stored s ∈ (Database.driver.run oneLife Database.empty).1 →
      s.id ≠ Int64.maxValue := by
    intro s hs
    rw [hlog] at hs
    obtain rfl : s = { shortLived with id := 1 } := by simpa using hs
    decide
  refine ⟨hback, hfit, (answers_agree oneLife hback hfit _ _ _ _ rfl).1 ?_⟩
  rintro ⟨r, hr, -⟩
  cases hr

/-- A record that expires in a leap second within a minute. -/
def leapRecord : Record where
  id := 0
  userId := 7
  digest := "d"
  name := none
  abilities := "*"
  createdAt := .epoch
  expiresAt := some ⟨0, 1500000000, by decide⟩
  lastUsedAt := none

/-- The record goes into both stores with the id 1, and all its instants have plain years. A second after
its expiry began, the store in memory takes it to be expired. The row of the database says that it expires
half a second later, and the database answers with a record that says so too. -/
theorem leap_second_divides_stores :
    let asked : List (Call × Instant) := [(.store leapRecord, .epoch)]
    let now : Instant := ⟨1, 0, by decide⟩
    let inMemory := (Memory.driver.answer (.findById 1) now (Memory.driver.run asked Memory.empty).2).1
    let inTable :=
      (Database.driver.answer (.findById 1) now (Database.driver.run asked Database.empty).2).1
    leapRecord.HasPlainYears ∧
      (Database.driver.run asked Database.empty).1 = [.stored { leapRecord with id := 1 }] ∧
      inMemory = .error .expired ∧
      inTable = .ok { leapRecord with id := 1, expiresAt := some ⟨1, 500000000, by decide⟩ } ∧
      ¬ Call.Alike (.findById 1) inMemory inTable := by
  intro asked now inMemory inTable
  have hplain : leapRecord.HasPlainYears := by
    refine ⟨by decide +kernel, ?_, by rintro _ ⟨⟩⟩
    rintro _ ⟨⟩
    decide +kernel
  have hlog : (Database.driver.run asked Database.empty).1 = [.stored { leapRecord with id := 1 }] := by
    decide +kernel
  have hmemory : inMemory = .error .expired := by decide +kernel
  have htable : inTable =
      .ok { leapRecord with id := 1, expiresAt := some ⟨1, 500000000, by decide⟩ } := by decide +kernel
  refine ⟨hplain, hlog, hmemory, htable, ?_⟩
  rw [hmemory, htable]
  intro halike
  cases halike

end AccessTokens.Storage
