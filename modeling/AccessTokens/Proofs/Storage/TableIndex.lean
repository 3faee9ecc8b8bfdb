import AccessTokens.Proofs.Storage.MemoryIndex
import AccessTokens.Proofs.Storage.Table

/-!
# The rows and the ids of a table

This is for the table of a database what `Memory.Sound` and `Memory.Numbered` are for a store in memory.
`Table.Sound` says of the rows that no two have the same digest and that their ids lie above zero and not
above the greatest id. `Table.Numbered log` ties that greatest id to the history, by which the table has
not given or taken a greater one. In contrast to a store in memory, a table may hold the greatest id of
all, and nothing is said of the instants in its rows.

A step is opened once, in `Table.Sound.answer_cases`: a call changes nothing, or makes a change that the
table allows (`Table.Allows`) and leaves the table with that change applied.
-/

namespace AccessTokens.Storage

open Time (Instant)

namespace Table

/-- The table allows a change: a record to be stored is new by its id, which is positive, and by its
digest, and what is revoked or touched is there. -/
def Allows (t : Table) : Change → Prop
  | .stored r => t.rows[r.id]? = none ∧ t.find? r.digest = none ∧ 0 < r.id.toInt
  | .revoked digest => (t.find? digest).isSome
  | .touched id _ => t.rows.contains id

/-- No two rows have the same digest, and the ids of the rows are positive and at most the greatest id, which
remembers ids that are gone. -/
structure Sound (t : Table) : Prop where
  digest_unique : ∀ {i j : Int64} {row row' : Row}, t.rows[i]? = some row →
    t.rows[j]? = some row' → row.digest = row'.digest → i = j
  id_bounds : ∀ {i : Int64} {row : Row}, t.rows[i]? = some row →
    0 < i.toInt ∧ i.toInt ≤ t.greatestId.toInt
  greatestId_nonneg : 0 ≤ t.greatestId.toInt

variable {t : Table}

theorem Sound.empty : Sound {} where
  digest_unique := by simp
  id_bounds := by simp
  greatestId_nonneg := by decide

theorem rows_of_find?_eq_none {digest : String} (h : t.find? digest = none) {i : Int64} {row : Row}
    (hrow : t.rows[i]? = some row) : row.digest ≠ digest := by
  rintro rfl
  have hsome := isSome_find? hrow
  rw [h] at hsome
  cases hsome

/-- A row is the one that its digest leads to. The search goes through the rows, but no other row has the
digest. -/
theorem Sound.find?_of_rows (h : t.Sound) {i : Int64} {row : Row} (hrow : t.rows[i]? = some row) :
    t.find? row.digest = some (i, row) := by
  -- the search finds some row with the digest, and there is only one
  obtain ⟨⟨j, row'⟩, hfind⟩ := Option.isSome_iff_exists.1 (isSome_find? hrow)
  obtain ⟨hrow', hdigest⟩ := rows_of_find? hfind
  obtain rfl : j = i := h.digest_unique hrow' hrow hdigest
  rw [hrow] at hrow'
  rw [hfind, Option.some.inj hrow']

/-! ### Changes -/

theorem Sound.stored (h : t.Sound) {r : Record} (ha : t.Allows (.stored r)) :
    (t.apply (.stored r)).Sound := by
  obtain ⟨-, hdigest, hpos⟩ := ha
  have hgreatest : (t.apply (.stored r)).greatestId.toInt = max t.greatestId.toInt r.id.toInt :=
    toInt_max _ _
  have hnew {i : Int64} {row : Row} (hrow : t.rows[i]? = some row) : row.digest ≠ r.digest :=
    rows_of_find?_eq_none hdigest hrow
  refine ⟨?_, ?_, ?_⟩
  · intro i j row row' hi hj hd
    rw [rows_stored] at hi hj
    -- the new row is under one of the two ids, under both, or under none
    split at hi <;> split at hj
    · next hri hrj => exact hri.symm.trans hrj
    · cases hi
      exact absurd hd.symm (hnew hj)
    · cases hj
      exact absurd hd (hnew hi)
    · exact h.digest_unique hi hj hd
  · intro i row hi
    rw [rows_stored] at hi
    rw [hgreatest]
    split at hi
    · next hri =>
      subst hri
      omega
    · have := h.id_bounds hi
      omega
  · rw [hgreatest]
    omega

/-- A table that has no rows but those it had, up to the time of their last use. This covers revoking and
touching at once: neither brings a new id or a new digest. -/
theorem Sound.of_rows (h : t.Sound) {t' : Table} (hgreatest : t'.greatestId = t.greatestId)
    (hrows : ∀ {i : Int64} {row : Row}, t'.rows[i]? = some row →
      ∃ before, t.rows[i]? = some before ∧ before.digest = row.digest) : t'.Sound := by
  refine ⟨?_, ?_, ?_⟩
  · -- two rows with one digest come from two with one digest, which are one
    intro i j row row' hi hj hd
    obtain ⟨_, hi, hdi⟩ := hrows hi
    obtain ⟨_, hj, hdj⟩ := hrows hj
    exact h.digest_unique hi hj (hdi.trans (hd.trans hdj.symm))
  · intro i row hi
    obtain ⟨_, hi, -⟩ := hrows hi
    rw [hgreatest]
    exact h.id_bounds hi
  · rw [hgreatest]
    exact h.greatestId_nonneg

/-- **Every change that the table allows keeps it sound.** Only a stored record brings a row, and the two
other changes leave rows that were there. -/
theorem Sound.apply (h : t.Sound) {x : Change} (ha : t.Allows x) : (t.apply x).Sound := by
  cases x with
  | stored r => exact h.stored ha
  | revoked digest =>
    refine h.of_rows rfl ?_
    intro i row hi
    rw [rows_revoked, Option.filter_eq_some_iff] at hi
    exact ⟨row, hi.1, rfl⟩
  | touched id now =>
    refine h.of_rows rfl ?_
    intro i row hi
    rw [rows_touched] at hi
    split at hi
    · obtain ⟨before, hbefore, rfl⟩ := Option.map_eq_some_iff.1 hi
      exact ⟨before, hbefore, rfl⟩
    · exact ⟨row, hi, rfl⟩

/-! ### Calls -/

/-- A row whose id and digest are free goes in under the id that it brings. The greatest id is kept even if
the row is removed later. -/
theorem insert_of_free {id : Int64} {row : Row} (hid : t.rows[id]? = none)
    (hdigest : t.find? row.digest = none) : t.insert (some id) row =
      .ok (id, { rows := t.rows.insert id row, greatestId := max t.greatestId id }) := by
  have hnot : t.rows.contains id = false := by
    rw [Std.ExtTreeMap.contains_eq_isSome_getElem?, hid]
    rfl
  rw [insert, if_neg (by simp)]
  dsimp only [Option.getD_some]
  rw [hnot, hdigest]
  rfl

/-- A row is refused, or goes in under the id that it brings, and without one under the id after the
greatest. -/
theorem insert_cases (t : Table) (id? : Option Int64) (row : Row) :
    (∃ why, t.insert id? row = .error why) ∨
      ∃ id : Int64, id.toInt = id?.elim (t.greatestId.toInt + 1) Int64.toInt ∧
        t.rows[id]? = none ∧ t.find? row.digest = none ∧
        t.insert id? row =
          .ok (id, { rows := t.rows.insert id row, greatestId := max t.greatestId id }) := by
  rw [insert]
  -- three reasons to refuse, in the order in which a database looks for them
  by_cases hfull : id? = none ∧ t.greatestId = Int64.maxValue
  · rw [if_pos hfull]
    exact Or.inl ⟨_, rfl⟩
  have hchosen : (id?.getD (t.greatestId + 1)).toInt =
      id?.elim (t.greatestId.toInt + 1) Int64.toInt := by
    cases id? with
    | none => exact toInt_add_one fun hmax => hfull ⟨rfl, hmax⟩
    | some id => rfl
  rw [if_neg hfull]
  dsimp only
  -- from here on it does not matter whether the id was brought or chosen
  generalize id?.getD (t.greatestId + 1) = id at hchosen
  by_cases hid : t.rows.contains id
  · rw [if_pos hid]
    exact Or.inl ⟨_, rfl⟩
  by_cases hdigest : (t.find? row.digest).isSome
  · rw [if_neg hid, if_pos hdigest]
    exact Or.inl ⟨_, rfl⟩
  rw [if_neg hid, if_neg hdigest]
  refine Or.inr ⟨id, hchosen, ?_, by simpa using hdigest, rfl⟩
  exact Std.ExtTreeMap.getElem?_eq_none_of_contains_eq_false (Bool.eq_false_iff.2 hid)

/-- Storing fails and changes nothing, or keeps the record under its own id, or under the one after
the greatest if it has none. -/
theorem Sound.store_cases (h : t.Sound) (r : Record) :
    (∃ e, Database.store r ⟨some t⟩ = (.error e, ⟨some t⟩)) ∨
      ∃ id : Int64, id.toInt = (if r.id = 0 then t.greatestId.toInt + 1 else r.id.toInt) ∧
        t.Allows (.stored { r with id := id }) ∧
        Database.store r ⟨some t⟩ =
          (.ok { r with id := id }, ⟨some (t.apply (.stored { r with id := id }))⟩) := by
  by_cases hneg : r.id < 0
  · exact Or.inl ⟨_, by rw [Database.store, if_pos hneg]⟩
  -- a record without an id goes in without one, and the table chooses
  rcases t.insert_cases (if r.id = 0 then none else some r.id) (Row.ofRecord r) with
    ⟨why, hput⟩ | ⟨id, hid, hfree, hdigest, hput⟩
  · exact Or.inl ⟨_, Database.store_of_refused hneg hput⟩
  rw [apply_ite (fun id? : Option Int64 => id?.elim (t.greatestId.toInt + 1) Int64.toInt),
    Option.elim_none, Option.elim_some] at hid
  have hpos : 0 < id.toInt := by
    rw [hid]
    split
    · -- a chosen id is above the greatest, which is not negative
      have := h.greatestId_nonneg
      omega
    · next h0 => exact toInt_pos hneg h0
  exact Or.inr ⟨id, hid, ⟨hfree, hdigest, hpos⟩, Database.store_of_inserted hneg hput⟩

/-- A record that was taken is the one that was brought, under an id that is its own or was chosen. The
table is then changed by this record, and by nothing else. -/
theorem Sound.stored_of_ok (h : t.Sound) {r stored : Record}
    (hstored : (Database.store r ⟨some t⟩).1 = .ok stored) :
    stored = { r with id := stored.id } ∧
      stored.id.toInt = (if r.id = 0 then t.greatestId.toInt + 1 else r.id.toInt) ∧
      t.Allows (.stored stored) ∧
      (Database.store r ⟨some t⟩).2 = ⟨some (t.apply (.stored stored))⟩ := by
  rcases h.store_cases r with ⟨e, he⟩ | ⟨id, hid, ha, he⟩
  · rw [he] at hstored
    cases hstored
  · rw [he] at hstored
    obtain rfl := Except.ok.inj hstored
    exact ⟨rfl, hid, ha, by rw [he]⟩

/-- **What a call does.** It changes nothing, or makes one change that the table allows. This is the
counterpart of `Memory.Sound.answer_cases`, and runs of tables are taken apart with it. -/
theorem Sound.answer_cases (h : t.Sound) (c : Call) (now : Instant) :
    Change.ofAnswer? c now (Database.answer c now ⟨some t⟩).1 = none ∧
        (Database.answer c now ⟨some t⟩).2 = ⟨some t⟩ ∨
      ∃ x, Change.ofAnswer? c now (Database.answer c now ⟨some t⟩).1 = some x ∧ t.Allows x ∧
        (Database.answer c now ⟨some t⟩).2 = ⟨some (t.apply x)⟩ := by
  cases c with
  | store r =>
    rw [Database.answer]
    rcases h.store_cases r with ⟨e, he⟩ | ⟨id, -, ha, he⟩
    · rw [he]
      exact Or.inl ⟨rfl, rfl⟩
    · rw [he]
      exact Or.inr ⟨_, rfl, ha, rfl⟩
  | findByDigest d =>
    refine Or.inl ⟨?_, rfl⟩
    rw [Database.answer]
    cases Database.findByDigest d now ⟨some t⟩ <;> rfl
  | findById i =>
    refine Or.inl ⟨?_, rfl⟩
    rw [Database.answer]
    cases Database.findById i now ⟨some t⟩ <;> rfl
  | revoke d =>
    rw [Database.answer, Database.revoke]
    dsimp only
    by_cases hd : (t.find? d).isSome
    · rw [if_pos hd]
      exact Or.inr ⟨.revoked d, rfl, hd, rfl⟩
    · rw [if_neg hd]
      exact Or.inl ⟨rfl, rfl⟩
  | touch i =>
    rw [Database.answer, Database.touch]
    dsimp only
    by_cases hi : t.rows.contains i
    · rw [if_pos hi]
      exact Or.inr ⟨.touched i now, rfl, hi, rfl⟩
    · rw [if_neg hi]
      exact Or.inl ⟨rfl, rfl⟩

/-! ### Runs -/

/-- The table after a history. Its greatest id is one less than the id after all of the history. -/
structure Numbered (log : List Change) (t : Table) : Prop where
  sound : t.Sound
  greatestId_eq : t.greatestId.toInt + 1 = idAfter log
  id_pos : ∀ r, .stored r ∈ log → 0 < r.id.toInt

theorem Numbered.empty : Numbered [] {} where
  sound := Sound.empty
  greatestId_eq := rfl
  id_pos := by simp

theorem Numbered.apply {log : List Change} (h : t.Numbered log) {x : Change} (ha : t.Allows x) :
    (t.apply x).Numbered (log ++ [x]) where
  sound := h.sound.apply ha
  greatestId_eq := by
    have heq := h.greatestId_eq
    cases x with
    | stored r =>
      have hmax : (t.apply (.stored r)).greatestId.toInt = max t.greatestId.toInt r.id.toInt :=
        toInt_max _ _
      rw [hmax, idAfter_concat_stored]
      omega
    | revoked digest => rwa [idAfter_concat_revoked]
    | touched id now => rwa [idAfter_concat_touched]
  id_pos := by
    intro r hr
    rcases List.mem_append.1 hr with hr | hr
    · exact h.id_pos r hr
    · obtain rfl := List.mem_singleton.1 hr
      exact ha.2.2

theorem Numbered.answer {log : List Change} (h : t.Numbered log) (c : Call) (now : Instant) :
    ∃ t', (Database.answer c now ⟨some t⟩).2 = ⟨some t'⟩ ∧
      t'.Numbered (log ++ (Change.ofAnswer? c now (Database.answer c now ⟨some t⟩).1).toList) := by
  rcases h.sound.answer_cases c now with ⟨hx, ht⟩ | ⟨x, hx, ha, ht⟩
  · rw [hx, Option.toList_none, List.append_nil]
    exact ⟨t, ht, h⟩
  · rw [hx]
    exact ⟨_, ht, h.apply ha⟩

/-- **The induction on runs over a table.** What every allowed change of some kind keeps is kept by every
run whose changes are of that kind. -/
theorem Sound.run_induction {P : Table → Prop} {Mild : Change → Prop} (h : t.Sound) (start : P t)
    (step : ∀ (t : Table) (x : Change), t.Sound → P t → t.Allows x → Mild x → P (t.apply x))
    (later : List (Call × Instant)) (hlater : ∀ x ∈ (Database.driver.run later ⟨some t⟩).1, Mild x) :
    ∃ t', (Database.driver.run later ⟨some t⟩).2 = ⟨some t'⟩ ∧ t'.Sound ∧ P t' := by
  -- the table stays opened and sound along the run, so the induction carries both
  induction later using List.reverseRecOn with
  | nil => exact ⟨t, rfl, h, start⟩
  | append_singleton later x ih =>
    obtain ⟨c, now⟩ := x
    rw [Driver.run_concat] at hlater ⊢
    obtain ⟨t', ht', h', hp⟩ := ih fun x hx => hlater x (List.mem_append_left _ hx)
    rw [ht'] at hlater ⊢
    change ∃ t'', (Database.answer c now ⟨some t'⟩).2 = ⟨some t''⟩ ∧ t''.Sound ∧ P t''
    -- the last call changes nothing, or makes one change, which is in the history and so of the kind
    rcases h'.answer_cases c now with ⟨-, ht⟩ | ⟨x, hx, ha, ht⟩
    · exact ⟨t', ht, h', hp⟩
    · refine ⟨_, ht, h'.apply ha, step t' x h' hp ha (hlater x (List.mem_append_right _ ?_))⟩
      change x ∈ (Change.ofAnswer? c now (Database.answer c now ⟨some t'⟩).1).toList
      rw [hx]
      exact List.mem_singleton_self x

end Table

theorem Database.run_numbered (asked : List (Call × Instant)) :
    ∃ t, (driver.run asked empty).2 = ⟨some t⟩ ∧ t.Numbered (driver.run asked empty).1 := by
  refine driver.run_induction (P := fun log d => ∃ t, d = ⟨some t⟩ ∧ t.Numbered log)
    ⟨_, rfl, Table.Numbered.empty⟩ ?_ asked
  rintro log _ c now ⟨t, rfl, h⟩
  exact h.answer c now

end AccessTokens.Storage
