import AccessTokens.Proofs.Time.RowText
import AccessTokens.Record

/-!
# Records and the texts of their instants

Where a record is kept as text, its instants are what can be lost. A row cannot be read again when one of
them has another year than 0 to 9999, and then the first such column is the reason (`Record.unreadable?`).
An instant that is read is the one that its text says, so that what comes back is the record as it was
written (`Record.asWritten`), in a row as in JSON. Only leap seconds within a minute make a difference
between the two (`Record.asWritten_eq_self_iff`).
-/

namespace AccessTokens

open Time (Instant)

namespace Record

/-- Every instant of a record has a year of four digits. -/
structure HasPlainYears (r : Record) : Prop where
  createdAt : r.createdAt.HasPlainYear
  expiresAt : ∀ t, r.expiresAt = some t → t.HasPlainYear
  lastUsedAt : ∀ t, r.lastUsedAt = some t → t.HasPlainYear

/-- Every instant of a record has a text of its own. -/
structure IsWritable (r : Record) : Prop where
  createdAt : r.createdAt.IsWritable
  expiresAt : ∀ t, r.expiresAt = some t → t.IsWritable
  lastUsedAt : ∀ t, r.lastUsedAt = some t → t.IsWritable

/-- A row keeps a record: each of its instants can be read again and is the one that was written. -/
structure ReadsBack (r : Record) : Prop where
  createdAt : r.createdAt.ReadsBack
  expiresAt : ∀ t, r.expiresAt = some t → t.ReadsBack
  lastUsedAt : ∀ t, r.lastUsedAt = some t → t.ReadsBack

/-- A record with the instants that its texts say. -/
def asWritten (r : Record) : Record :=
  { r with
    createdAt := r.createdAt.asWritten
    expiresAt := r.expiresAt.map Instant.asWritten
    lastUsedAt := r.lastUsedAt.map Instant.asWritten }

/-- The instants of a record with their columns, in the order in which a row is read. An instant that is
absent is an empty column, which can always be read. -/
def columns (r : Record) : List (String × Option Instant) :=
  [("created_at", some r.createdAt), ("expires_at", r.expiresAt), ("last_used_at", r.lastUsedAt)]

/-- The first column whose instant has another year, if there is one. It is the one that is complained of, so
what is wrong with the columns behind it does not show. -/
def unreadable? (r : Record) : Option String :=
  (r.columns.find? fun column => ∃ t ∈ column.2, ¬ t.HasPlainYear).map Prod.fst

variable {r : Record}

/-! ### What texts say of a record -/

/-- An instant that may be absent is what is written of it, if it has a text of its own. -/
theorem map_asWritten_eq_self_iff {t? : Option Instant} :
    t?.map Instant.asWritten = t? ↔ ∀ t, t? = some t → t.IsWritable := by
  cases t? with
  | none => exact ⟨fun _ t ht => (nomatch ht), fun _ => rfl⟩
  | some t =>
    rw [Option.map_some, Option.some_inj, Instant.asWritten_eq_self_iff]
    exact ⟨fun h u hu => Option.some.inj hu ▸ h, fun h => h t rfl⟩

/-- A record is what is written of it exactly when all its instants have texts of their own. The other
fields are written as they are, so nothing else can make a difference. -/
theorem asWritten_eq_self_iff : r.asWritten = r ↔ r.IsWritable := by
  unfold asWritten
  rw [Record.ext_iff]
  -- the five other fields are not touched
  constructor
  · rintro ⟨-, -, -, -, -, hcreated, hexpires, hused⟩
    exact ⟨Instant.asWritten_eq_self_iff.1 hcreated, map_asWritten_eq_self_iff.1 hexpires,
      map_asWritten_eq_self_iff.1 hused⟩
  · rintro ⟨hcreated, hexpires, hused⟩
    exact ⟨rfl, rfl, rfl, rfl, rfl, Instant.asWritten_eq_self_iff.2 hcreated,
      map_asWritten_eq_self_iff.2 hexpires, map_asWritten_eq_self_iff.2 hused⟩

theorem ReadsBack.hasPlainYears (h : r.ReadsBack) : r.HasPlainYears :=
  ⟨h.createdAt.1, fun t ht => (h.expiresAt t ht).1, fun t ht => (h.lastUsedAt t ht).1⟩

theorem ReadsBack.isWritable (h : r.ReadsBack) : r.IsWritable :=
  ⟨h.createdAt.2, fun t ht => (h.expiresAt t ht).2, fun t ht => (h.lastUsedAt t ht).2⟩

/-! ### The columns of a row -/

theorem unreadable?_of_createdAt (h : ¬ r.createdAt.HasPlainYear) :
    r.unreadable? = some "created_at" := by
  unfold unreadable? columns
  rw [List.find?_cons_of_pos (by simpa using h), Option.map_some]

theorem unreadable?_of_expiresAt (hc : r.createdAt.HasPlainYear) {e : Instant}
    (he : r.expiresAt = some e) (h : ¬ e.HasPlainYear) : r.unreadable? = some "expires_at" := by
  unfold unreadable? columns
  -- the columns before it are passed over, and those behind it are not looked at
  rw [List.find?_cons_of_neg (by simpa using hc),
    List.find?_cons_of_pos (by simpa [he] using h), Option.map_some]

theorem unreadable?_of_lastUsedAt (hc : r.createdAt.HasPlainYear)
    (he : ∀ e, r.expiresAt = some e → e.HasPlainYear) {u : Instant} (hu : r.lastUsedAt = some u)
    (h : ¬ u.HasPlainYear) : r.unreadable? = some "last_used_at" := by
  unfold unreadable? columns
  rw [List.find?_cons_of_neg (by simpa using hc), List.find?_cons_of_neg (by simpa using he),
    List.find?_cons_of_pos (by simpa [hu] using h), Option.map_some]

theorem HasPlainYears.unreadable?_eq_none (h : r.HasPlainYears) : r.unreadable? = none := by
  unfold unreadable? columns
  rw [List.find?_cons_of_neg (by simpa using h.createdAt),
    List.find?_cons_of_neg (by simpa using h.expiresAt),
    List.find?_cons_of_neg (by simpa using h.lastUsedAt), List.find?_nil, Option.map_none]

end Record

end AccessTokens
