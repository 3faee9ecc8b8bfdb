import AccessTokens.Proofs.Storage.TableIndex

/-!
# A row after it was stored

What a table has of a record stays the row that was put in (`Table.Holds`) through all calls that leave it
alone (`Change.Leaves`): its digest is not revoked, and its id is not touched. Other records may come and
go. Looking the record up then reads that row, by its id and by its digest alike (`Holds.findById`,
`Holds.findByDigest`).

Touches of the record itself change only the time of its last use. As long as whatever is touched is
touched at an instant with a plain year (`Change.Spares`), the row is the one that was put in up to that
time (`Table.Keeps`). Looking the digest up then finds the record again if its expiry reads back
(`Keeps.findByDigest`), and no record at all if its expiry has another year
(`Keeps.findByDigest_unreadable`).

What one change keeps a run keeps, by `Sound.run_induction`.
-/

namespace AccessTokens.Storage

open Time (Instant)

/-- A change leaves the row of a record alone: it neither revokes its digest nor touches its id. -/
def Change.Leaves (r : Record) : Change → Prop
  | .stored _ => True
  | .revoked digest => digest ≠ r.digest
  | .touched id _ => id ≠ r.id

/-- A change spares a record with a digest: it does not revoke the digest, and does not touch any record
at an instant that could not be read back. -/
def Change.Spares (digest : String) : Change → Prop
  | .stored _ => True
  | .revoked d => d ≠ digest
  | .touched _ now => now.HasPlainYear

namespace Table

/-- The row of a record is in the table as it was put in. Unlike `Keeps` this allows no touch of it. -/
structure Holds (r : Record) (t : Table) : Prop extends Sound t where
  row : t.rows[r.id]? = some (Row.ofRecord r)

/-- The row of a record is in the table, last used at an instant with a plain year, or never. -/
structure Keeps (r : Record) (t : Table) : Prop extends Sound t where
  row : ∃ used : Option Instant, (∀ u, used = some u → u.HasPlainYear) ∧
    t.rows[r.id]? = some (Row.ofRecord { r with lastUsedAt := used })

variable {t : Table} {r : Record}

/-! ### The row as it was put in -/

/-- A record that was stored has its row in the table. -/
theorem Sound.holds_stored (h : t.Sound) (ha : t.Allows (.stored r)) :
    (t.apply (.stored r)).Holds r where
  toSound := h.stored ha
  row := by rw [rows_stored, if_pos rfl]

/-- **A change that leaves the row alone leaves it as it is.** Another record has another id and another
digest, so neither key leads to this row. -/
theorem Holds.apply (h : t.Holds r) {x : Change} (ha : t.Allows x) (hx : x.Leaves r) :
    (t.apply x).Holds r where
  toSound := h.toSound.apply ha
  row := by
    have hrow := h.row
    cases x with
    | stored r' =>
      -- the table allows only an id that is free
      have hne : r'.id ≠ r.id := by
        intro hid
        rw [← hid, ha.1] at hrow
        cases hrow
      rw [rows_stored, if_neg hne, hrow]
    | revoked digest =>
      have hdigest : (Row.ofRecord r).digest ≠ digest := Ne.symm hx
      rw [rows_revoked, hrow, Option.filter_some, if_pos (by simpa using hdigest)]
    | touched id now => rw [rows_touched, if_neg hx, hrow]

theorem Holds.run (h : t.Holds r) (later : List (Call × Instant))
    (hlater : ∀ x ∈ (Database.driver.run later ⟨some t⟩).1, x.Leaves r) :
    ∃ t', (Database.driver.run later ⟨some t⟩).2 = ⟨some t'⟩ ∧ t'.Holds r := by
  obtain ⟨t', ht', -, h'⟩ :=
    h.toSound.run_induction h (fun _ _ _ hk ha hx => hk.apply ha hx) later hlater
  exact ⟨t', ht', h'⟩

theorem Holds.find? (h : t.Holds r) : t.find? r.digest = some (r.id, Row.ofRecord r) :=
  h.toSound.find?_of_rows h.row

theorem Holds.findById (h : t.Holds r) (now : Instant) :
    Database.findById r.id now ⟨some t⟩ = Database.found now (some (r.id, Row.ofRecord r)) := by
  -- the row under the id is there, and what comes of it is a matter of reading it
  change Database.found now (t.rows[r.id]?.map fun row => (r.id, row)) = _
  rw [h.row, Option.map_some]

theorem Holds.findByDigest (h : t.Holds r) (now : Instant) :
    Database.findByDigest r.digest now ⟨some t⟩ =
      Database.found now (some (r.id, Row.ofRecord r)) := by
  change Database.found now (t.find? r.digest) = _
  rw [h.find?]

/-! ### The row up to its last use -/

theorem Keeps.holds (h : t.Keeps r) : ∃ used : Option Instant,
    (∀ u, used = some u → u.HasPlainYear) ∧ t.Holds { r with lastUsedAt := used } := by
  obtain ⟨used, hused, hrow⟩ := h.row
  exact ⟨used, hused, h.toSound, hrow⟩

theorem Sound.keeps_stored (h : t.Sound) (ha : t.Allows (.stored r))
    (hused : ∀ u, r.lastUsedAt = some u → u.HasPlainYear) : (t.apply (.stored r)).Keeps r where
  toSound := h.stored ha
  row := ⟨r.lastUsedAt, hused, (h.holds_stored ha).row⟩

/-- A record that was taken is what was brought but for its id, and its row is in the table. -/
theorem Sound.keeps_of_store (h : t.Sound) {stored : Record}
    (hstore : (Database.store r ⟨some t⟩).1 = .ok stored)
    (hused : ∀ u, r.lastUsedAt = some u → u.HasPlainYear) :
    stored = { r with id := stored.id } ∧
      ∃ t', (Database.store r ⟨some t⟩).2 = ⟨some t'⟩ ∧ t'.Keeps stored := by
  obtain ⟨hstored, -, ha, ht⟩ := h.stored_of_ok hstore
  have hlast : stored.lastUsedAt = r.lastUsedAt := by rw [hstored]
  exact ⟨hstored, _, ht, h.keeps_stored ha (hlast ▸ hused)⟩

/-- **A change that spares the record leaves its row**, or marks it as used at an instant that can be read
back, so that the column of the last use never becomes unreadable. -/
theorem Keeps.apply (h : t.Keeps r) {x : Change} (ha : t.Allows x) (hx : x.Spares r.digest) :
    (t.apply x).Keeps r := by
  -- the row is that of the record with some last use, and only a touch of its id does not leave it alone
  obtain ⟨used, hused, hholds⟩ := h.holds
  have hleft (hleaves : x.Leaves r) : (t.apply x).Keeps r :=
    ⟨hholds.toSound.apply ha, used, hused, (hholds.apply ha hleaves).row⟩
  cases x with
  | stored r' => exact hleft trivial
  | revoked digest => exact hleft hx
  | touched id now =>
    by_cases hid : id = r.id
    · -- only the column of the last use is written
      refine ⟨h.toSound.apply ha, some now, fun u hu => Option.some.inj hu ▸ hx, ?_⟩
      rw [rows_touched, if_pos hid, hholds.row]
      rfl
    · exact hleft hid

theorem Keeps.run (h : t.Keeps r) (later : List (Call × Instant))
    (hlater : ∀ x ∈ (Database.driver.run later ⟨some t⟩).1, x.Spares r.digest) :
    ∃ t', (Database.driver.run later ⟨some t⟩).2 = ⟨some t'⟩ ∧ t'.Keeps r := by
  obtain ⟨t', ht', -, h'⟩ :=
    h.toSound.run_induction h (fun _ _ _ hk ha hx => hk.apply ha hx) later hlater
  exact ⟨t', ht', h'⟩

/-- Looking the digest up finds the record again, up to the time of its last use, as long as a row keeps the
instants that it was stored with. -/
theorem Keeps.findByDigest (h : t.Keeps r) (hcreated : r.createdAt.ReadsBack)
    (hexpires : ∀ e, r.expiresAt = some e → e.ReadsBack) (now : Instant) :
    ∃ used, Database.findByDigest r.digest now ⟨some t⟩ =
      unexpired { r with lastUsedAt := used } now := by
  obtain ⟨used, hused, hholds⟩ := h.holds
  have hplain : ({ r with lastUsedAt := used } : Record).HasPlainYears :=
    ⟨hcreated.1, fun e he => (hexpires e he).1, hused⟩
  refine ⟨used.map Instant.asWritten, (hholds.findByDigest now).trans ?_⟩
  -- the last use comes back as it was written, and all else as it was
  have hwritten : ({ r with lastUsedAt := used } : Record).asWritten =
      { r with lastUsedAt := used.map Instant.asWritten } := by
    have hcreated' := Instant.asWritten_of_isWritable hcreated.2
    have hexpires' : r.expiresAt.map Instant.asWritten = r.expiresAt :=
      Record.map_asWritten_eq_self_iff.2 fun e he => (hexpires e he).2
    rw [Record.asWritten, hcreated', hexpires']
  rw [Database.found, Row.toRecord_ofRecord_eq, hplain.unreadable?_eq_none, hwritten]
  rfl

/-- Looking the digest up fails on an expiry that cannot be read, however often the record was used. A touch
writes the last use only, which is read after the expiry. -/
theorem Keeps.findByDigest_unreadable (h : t.Keeps r) (hcreated : r.createdAt.HasPlainYear)
    {e : Instant} (he : r.expiresAt = some e) (hplain : ¬ e.HasPlainYear) (now : Instant) :
    Database.findByDigest r.digest now ⟨some t⟩ =
      .error (.database "Invalid expires_at timestamp") := by
  obtain ⟨used, -, hholds⟩ := h.holds
  have hread : (Row.ofRecord { r with lastUsedAt := used }).toRecord r.id =
      .error (.database "Invalid expires_at timestamp") :=
    Row.toRecord_of_unreadable_expiry (r := { r with lastUsedAt := used }) hcreated he hplain r.id
  refine (hholds.findByDigest now).trans ?_
  dsimp only
  rw [Database.found, hread]
  rfl

end Table

end AccessTokens.Storage
