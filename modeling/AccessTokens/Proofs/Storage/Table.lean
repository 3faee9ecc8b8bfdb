import AccessTokens.Proofs.Record.Written
import AccessTokens.Proofs.Storage.History
import AccessTokens.Storage.Database

/-!
# Rows and tables

What a database knows of a record is its row. A row is read column after column, and the first instant
without a plain year stops the reading (`Record.unreadable?`, `Row.toRecord_ofRecord_eq`). A record whose
instants all have plain years comes back from its row as it was written, which is as it went in when its
instants have texts of their own. Looking up such a row then answers as if the record itself had been found
(`Database.found_ofRecord`).

A table is read through two views, the row under an id and the row with a digest. This file says what a
change of the table (`Table.apply`) does to the first, and when the second finds something.
-/

namespace AccessTokens

open Time (Instant)

namespace Storage

/-! ### Rows -/

/-- The text of an instant with a plain year is read as it was written. -/
theorem readTimestamp_offsetText (column : String) {t : Instant} (h : t.HasPlainYear) :
    readTimestamp column t.offsetText = .ok t.asWritten := by
  rw [readTimestamp, Instant.readStrict?_offsetText h]

theorem readTimestamp_offsetText_of_not_plain (column : String) {t : Instant}
    (h : ¬ t.HasPlainYear) : readTimestamp column t.offsetText =
      .error (.database ("Invalid " ++ column ++ " timestamp")) := by
  rw [readTimestamp, Instant.readStrict?_offsetText_of_not_plain h]

/-- A column that may be empty is read as it was written, or its instant has another year. A row is taken
apart into its columns with this, and none of them is opened again. -/
theorem readTimestamp?_offsetText_cases (column : String) (t? : Option Instant) :
    (∀ t, t? = some t → t.HasPlainYear) ∧
        readTimestamp? column (t?.map Instant.offsetText) = .ok (t?.map Instant.asWritten) ∨
      ∃ t, t? = some t ∧ ¬ t.HasPlainYear ∧ readTimestamp? column (t?.map Instant.offsetText) =
        .error (.database ("Invalid " ++ column ++ " timestamp")) := by
  -- an empty column is read as empty
  cases t? with
  | none => exact Or.inl ⟨fun t ht => (nomatch ht), rfl⟩
  | some t =>
    rw [Option.map_some, readTimestamp?]
    by_cases h : t.HasPlainYear
    · refine Or.inl ⟨fun u hu => Option.some.inj hu ▸ h, ?_⟩
      rw [readTimestamp_offsetText column h]
      rfl
    · refine Or.inr ⟨t, rfl, h, ?_⟩
      rw [readTimestamp_offsetText_of_not_plain column h]
      rfl

/-- **What the row of a record reads as.** The record as it was written, or the first of its instants that
has another year. -/
theorem Row.toRecord_ofRecord_eq (id : Int64) (r : Record) : (Row.ofRecord r).toRecord id =
    match r.unreadable? with
    | some column => .error (.database ("Invalid " ++ column ++ " timestamp"))
    | none => .ok { r.asWritten with id := id } := by
  unfold toRecord ofRecord
  -- the columns are gone through from the first, and one that does not read back ends it
  by_cases hc : r.createdAt.HasPlainYear
  case neg =>
    rw [readTimestamp_offsetText_of_not_plain _ hc, Record.unreadable?_of_createdAt hc]
    rfl
  rw [readTimestamp_offsetText _ hc]
  rcases readTimestamp?_offsetText_cases "expires_at" r.expiresAt with
    ⟨he, hread⟩ | ⟨e, hexpires, he, hread⟩
  case inr =>
    rw [hread, Record.unreadable?_of_expiresAt hc hexpires he]
    rfl
  rw [hread]
  rcases readTimestamp?_offsetText_cases "last_used_at" r.lastUsedAt with
    ⟨hu, hread⟩ | ⟨u, hused, hu, hread⟩
  case inr =>
    rw [hread, Record.unreadable?_of_lastUsedAt hc he hused hu]
    rfl
  rw [hread, Record.HasPlainYears.unreadable?_eq_none ⟨hc, he, hu⟩]
  rfl

/-- **A record comes back from its row**, when a row can keep its instants. -/
theorem Row.toRecord_ofRecord {r : Record} (h : r.ReadsBack) :
    (Row.ofRecord r).toRecord r.id = .ok r := by
  rw [toRecord_ofRecord_eq, h.hasPlainYears.unreadable?_eq_none,
    Record.asWritten_eq_self_iff.2 h.isWritable]

/-- A row that keeps its instants is as good as the record itself. -/
theorem Database.found_ofRecord {r : Record} (h : r.ReadsBack) (now : Instant) :
    found now (some (r.id, Row.ofRecord r)) = unexpired r now := by
  rw [found, Row.toRecord_ofRecord h]
  rfl

/-- An expiry in another year makes the row unreadable, whatever the last use is: its column comes after
that of the expiry. -/
theorem Row.toRecord_of_unreadable_expiry {r : Record} (hc : r.createdAt.HasPlainYear) {e : Instant}
    (he : r.expiresAt = some e) (h : ¬ e.HasPlainYear) (id : Int64) :
    (Row.ofRecord r).toRecord id = .error (.database "Invalid expires_at timestamp") := by
  rw [toRecord_ofRecord_eq, Record.unreadable?_of_expiresAt hc he h]
  rfl

/-- A row is a record, or has a text that cannot be read. The first such text is complained of, and it is a
text of an instant. -/
theorem Row.toRecord_cases (id : Int64) (row : Row) :
    (∃ r, row.toRecord id = .ok r) ∨ ∃ text, row.toRecord id = .error (.database text) := by
  have hread (column text : String) : (∃ t, readTimestamp column text = .ok t) ∨
      ∃ text', readTimestamp column text = .error (.database text') := by
    rw [readTimestamp]
    cases Time.readStrict? text with
    | none => exact Or.inr ⟨_, rfl⟩
    | some t => exact Or.inl ⟨t, rfl⟩
  -- the two columns that may be empty fail in the same way, or not at all
  have hread? (column : String) (text? : Option String) :
      (∃ t?, readTimestamp? column text? = .ok t?) ∨
        ∃ text', readTimestamp? column text? = .error (.database text') := by
    cases text? with
    | none => exact Or.inl ⟨none, rfl⟩
    | some text =>
      rw [readTimestamp?]
      rcases hread column text with ⟨t, ht⟩ | ⟨text', ht⟩
      · exact Or.inl ⟨some t, by rw [ht]; rfl⟩
      · exact Or.inr ⟨text', by rw [ht]; rfl⟩
  rw [toRecord]
  -- the first of the three that cannot be read is the error
  rcases hread "created_at" row.createdAt with ⟨_, hc⟩ | ⟨_, hc⟩ <;> rw [hc]
  case inr => exact Or.inr ⟨_, rfl⟩
  rcases hread? "expires_at" row.expiresAt with ⟨_, he⟩ | ⟨_, he⟩ <;> rw [he]
  case inr => exact Or.inr ⟨_, rfl⟩
  rcases hread? "last_used_at" row.lastUsedAt with ⟨_, hl⟩ | ⟨_, hl⟩ <;> rw [hl]
  case inr => exact Or.inr ⟨_, rfl⟩
  exact Or.inl ⟨_, rfl⟩

theorem unexpired_ne_notFound (r : Record) (now : Instant) :
    unexpired r now ≠ .error .notFound := by
  rw [unexpired]
  split <;> simp

/-- A row that is there is found, though it may be refused. No text and no expiry makes a row look as if it
were missing. -/
theorem Database.found_eq_notFound_iff {now : Instant} {found? : Option (Int64 × Row)} :
    found now found? = .error .notFound ↔ found? = none := by
  constructor
  · intro h
    rcases found? with _ | ⟨id, row⟩
    · rfl
    rcases row.toRecord_cases id with ⟨r, hr⟩ | ⟨text, hr⟩
    · rw [found, hr] at h
      exact absurd h (unexpired_ne_notFound r now)
    · rw [found, hr] at h
      cases h
  · rintro rfl
    rfl

/-! ### Tables -/

namespace Table

/-- The table after a change. -/
def apply (t : Table) : Change → Table
  | .stored r =>
    { rows := t.rows.insert r.id (Row.ofRecord r), greatestId := max t.greatestId r.id }
  | .revoked digest => t.erase digest
  | .touched id now => t.touch id now

variable (t : Table) (i : Int64)

theorem rows_stored (r : Record) : (t.apply (.stored r)).rows[i]? =
    if r.id = i then some (Row.ofRecord r) else t.rows[i]? := by
  simp [apply, Std.ExtTreeMap.getElem?_insert]

theorem rows_revoked (digest : String) : (t.apply (.revoked digest)).rows[i]? =
    t.rows[i]?.filter fun row => row.digest ≠ digest := by
  simp [apply, erase]

theorem rows_touched (id : Int64) (now : Instant) : (t.apply (.touched id now)).rows[i]? =
    if id = i then t.rows[i]?.map fun row => { row with lastUsedAt := some now.offsetText }
    else t.rows[i]? := by
  simp only [apply, touch, Std.ExtTreeMap.getElem?_modify, Std.compare_eq_iff_eq]
  split
  · next h => rw [h]
  · rfl

variable {t i}

/-- What the search for a digest finds is a row of the table with this digest. Nothing is said of which one
it is when there are more. -/
theorem rows_of_find? {digest : String} {row : Row} (h : t.find? digest = some (i, row)) :
    t.rows[i]? = some row ∧ row.digest = digest := by
  -- what is found is an entry of the table, and passes the test
  have hmem := List.mem_of_find?_eq_some h
  have hd := List.find?_some h
  exact ⟨Std.ExtTreeMap.mem_toList_iff_getElem?_eq_some.1 hmem, by simpa using hd⟩

/-- The search for the digest of a row finds some row. -/
theorem isSome_find? {row : Row} (h : t.rows[i]? = some row) : (t.find? row.digest).isSome := by
  rw [find?, List.find?_isSome]
  exact ⟨(i, row), Std.ExtTreeMap.mem_toList_iff_getElem?_eq_some.2 h, by simp⟩

end Table

namespace Database

variable {t : Table} {r : Record}

theorem store_of_refused {why : Table.Refusal} (hneg : ¬ r.id < 0)
    (h : t.insert (if r.id = 0 then none else some r.id) (Row.ofRecord r) = .error why) :
    store r ⟨some t⟩ = (.error (refusalError why), ⟨some t⟩) := by
  rw [store, if_neg hneg]
  dsimp only
  rw [h]

theorem store_of_inserted {id : Int64} {t' : Table} (hneg : ¬ r.id < 0)
    (h : t.insert (if r.id = 0 then none else some r.id) (Row.ofRecord r) = .ok (id, t')) :
    store r ⟨some t⟩ = (.ok { r with id := id }, ⟨some t'⟩) := by
  rw [store, if_neg hneg]
  dsimp only
  rw [h]

end Database

end Storage

end AccessTokens
