import AccessTokens.Proofs.Storage.StoredRow

/-!
# Reading back what was stored

A database that has stored a record answers with it again, by its id and by its digest, for as long as
nothing has changed its row. How it answers is known from the record alone: the first of its instants with
a year that a row cannot hold is the error, and comes before the check of the expiry; otherwise the expiry
decides, and the record comes back as it was written, under its id (`stored_records_read_back`).

What was written is what was brought, for all records but those with a leap second within a minute. A row
has no text for such an instant, and gives back the second after it (`leap_second_moves_on`).

What is in the table is the row of the record (`Table.Sound.holds_stored`, `Table.Holds.run`), and what the
row reads as is `Row.toRecord_ofRecord_eq`, to which each column contributes its own round trip of an
instant through text.
-/

namespace AccessTokens.Storage

open Time (Instant)

/-- What looking up the row of a record comes to. A column that cannot be read comes before the expiry,
since the expiry is one of the columns. -/
theorem Database.found_ofRecord_eq (r : Record) (now : Instant) :
    found now (some (r.id, Row.ofRecord r)) =
      match r.unreadable? with
      | some column => .error (.database ("Invalid " ++ column ++ " timestamp"))
      | none => if r.asWritten.isExpiredAt now then .error .expired else .ok r.asWritten := by
  show (do unexpired (← (Row.ofRecord r).toRecord r.id) now) = _
  rw [Row.toRecord_ofRecord_eq]
  cases r.unreadable? with
  | some column => rfl
  | none => rfl

/-- **What was stored is read back.** A database is in any state that calls have brought it to, and stores a
record. Calls are made after that, and none of them revokes the digest of the record or touches its id.

What was stored is then the record that was brought, under the id that it was given. At every reading of the
clock, looking it up by that id and looking it up by its digest both fail if one of its instants has a
year outside 0 to 9999, with the first such column in the error, expired or not. If none has, both fail as
expired once the clock is after its expiry, and until then both answer with exactly what was stored. Its
instants are meant as a row writes them: a leap second within a minute is the second after it
(`Instant.asWritten`), and every other instant is itself. -/
theorem stored_records_read_back (asked : List (Call × Instant)) {r stored : Record} {stamp : Instant}
    {d : Database}
    (hstore : Database.driver.answer (.store r) stamp (Database.driver.run asked Database.empty).2 =
      (.ok stored, d))
    (later : List (Call × Instant))
    (hlater : ∀ x ∈ (Database.driver.run later d).1, x.Leaves stored) (now : Instant) :
    let d' := (Database.driver.run later d).2
    let found : Except StorageError Record :=
      match r.unreadable? with
      | some column => .error (.database ("Invalid " ++ column ++ " timestamp"))
      | none =>
        if r.asWritten.isExpiredAt now then .error .expired else .ok { r.asWritten with id := stored.id }
    stored = { r with id := stored.id } ∧
      (Database.driver.answer (.findById stored.id) now d').1 = found ∧
      (Database.driver.answer (.findByDigest r.digest) now d').1 = found := by
  intro d' found
  obtain ⟨t, ht, hnumbered⟩ := Database.run_numbered asked
  rw [ht] at hstore
  -- what was stored is allowed, and its row is in the table
  obtain ⟨hrecord, -, hallowed, hleft⟩ := hnumbered.sound.stored_of_ok (congrArg Prod.fst hstore)
  obtain rfl : d = ⟨some (t.apply (.stored stored))⟩ := (congrArg Prod.snd hstore).symm.trans hleft
  have hholds := hnumbered.sound.holds_stored hallowed
  -- the row is still there after the other calls
  obtain ⟨t', ht', hholds'⟩ := hholds.run later hlater
  have hd' : d' = ⟨some t'⟩ := ht'
  -- both ways to look it up come to that row
  have hfound : Database.found now (some (stored.id, Row.ofRecord stored)) = found := by
    rw [Database.found_ofRecord_eq, hrecord]
    rfl
  have hdigest : stored.digest = r.digest := by rw [hrecord]
  refine ⟨hrecord, ?_, ?_⟩
  · rw [hd', ← hfound]
    exact hholds'.findById now
  · rw [hd', ← hfound, ← hdigest]
    exact hholds'.findByDigest now

/-- A record that was created in a leap second, expired before the year 0, and was used after the year
9999. -/
def ancientRecord : Record where
  id := 7
  userId := -3
  digest := "b"
  name := some "a, \"b\""
  abilities := " read:*,,write"
  createdAt := ⟨59, 1500000000, by decide⟩
  expiresAt := some ⟨-62198755200, 0, by decide⟩
  lastUsedAt := some ⟨253402300800, 1, by decide⟩

/-- A record that was created in a leap second at the end of a minute, expires with the year 9999, and was
used when the year 0 began. -/
def lastingRecord : Record where
  id := 0
  userId := 9223372036854775807
  digest := ""
  name := some ""
  abilities := "\u0000"
  createdAt := ⟨119, 1999999999, by decide⟩
  expiresAt := some ⟨253402300799, 999999999, by decide⟩
  lastUsedAt := some ⟨-62167219200, 1000, by decide⟩

/-- Other records come, are touched, and go. None of these calls is about the records that are read back. -/
def otherCalls : List (Call × Instant) :=
  let other := Record.fresh 1 "c" none [] .epoch none
  [(.store other, .epoch), (.touch 9, .epoch), (.findById 7, .epoch), (.revoke "c", .epoch)]

/-- Of the two records, the first is lost to its readers, and the second comes back to the nanosecond. -/
theorem stored_records_read_back_ancient :
    let asked : List (Call × Instant) := [(.store (Record.fresh 1 "a" none [] .epoch none), .epoch)]
    let first := Database.driver.answer (.store ancientRecord) .epoch
      (Database.driver.run asked Database.empty).2
    let asked' := asked ++ [(.store ancientRecord, .epoch)]
    let second := Database.driver.answer (.store lastingRecord) .epoch
      (Database.driver.run asked' Database.empty).2
    let stored := { lastingRecord with id := 8 }
    (first.1 = .ok ancientRecord ∧
      (∀ x ∈ (Database.driver.run [] first.2).1, x.Leaves ancientRecord) ∧
      ancientRecord.isExpiredAt .epoch = true ∧
      (Database.driver.answer (.findByDigest "b") .epoch (Database.driver.run [] first.2).2).1 =
        .error (.database "Invalid expires_at timestamp")) ∧
    second.1 = .ok stored ∧
      (∀ x ∈ (Database.driver.run otherCalls second.2).1, x.Leaves stored) ∧
      (Database.driver.answer (.findById 8) .epoch (Database.driver.run otherCalls second.2).2).1 =
        .ok stored ∧
      (Database.driver.answer (.findByDigest "") .epoch (Database.driver.run otherCalls second.2).2).1 =
        .ok stored := by
  intro asked first asked' second stored
  have hfirst : first.1 = .ok ancientRecord := by decide +kernel
  have hnothing : ∀ x ∈ (Database.driver.run [] first.2).1, x.Leaves ancientRecord := by
    rw [Driver.run_nil]
    simp
  have hcolumn : ancientRecord.unreadable? = some "expires_at" := by decide +kernel
  obtain ⟨-, -, hlost⟩ := stored_records_read_back asked (Prod.ext hfirst rfl) [] hnothing .epoch
  rw [hcolumn] at hlost
  have hsecond : second.1 = .ok stored := by decide +kernel
  have hchanges : (Database.driver.run otherCalls second.2).1 =
      [.stored { Record.fresh 1 "c" none [] .epoch none with id := 9 }, .touched 9 .epoch,
        .revoked "c"] := by decide +kernel
  have hlater : ∀ x ∈ (Database.driver.run otherCalls second.2).1, x.Leaves stored := by
    rw [hchanges]
    simp [Change.Leaves, stored, lastingRecord]
  -- none of its years is in the way, its leap second has a text, and it has not expired
  have hreadable : lastingRecord.unreadable? = none := by decide +kernel
  have hwritten : lastingRecord.asWritten = lastingRecord := by decide +kernel
  have hlive : lastingRecord.isExpiredAt .epoch = false := by decide
  obtain ⟨-, hid, hdigest⟩ :=
    stored_records_read_back asked' (Prod.ext hsecond rfl) otherCalls hlater .epoch
  rw [hreadable, hwritten, hlive] at hid hdigest
  exact ⟨⟨hfirst, hnothing, by decide, hlost⟩, hsecond, hlater, hid, hdigest⟩

/-- A record that was created in a leap second within a minute. -/
def createdInLeap : Record where
  id := 0
  userId := 1
  digest := "a"
  name := none
  abilities := ""
  createdAt := ⟨30, 1250000000, by decide⟩
  expiresAt := none
  lastUsedAt := none

/-- The record goes into an empty database, and none of its instants has a year that a row cannot hold. It
comes back as created a quarter of a second into the second after. -/
theorem leap_second_moves_on :
    let stored := { createdInLeap with id := 1 }
    let answer := Database.driver.answer (.store createdInLeap) .epoch Database.empty
    let back := (Database.driver.answer (.findById 1) .epoch answer.2).1
    answer.1 = .ok stored ∧ createdInLeap.unreadable? = none ∧
      createdInLeap.isExpiredAt .epoch = false ∧
      back = .ok { stored with createdAt := ⟨31, 250000000, by decide⟩ } ∧ back ≠ .ok stored := by
  decide +kernel

end AccessTokens.Storage
