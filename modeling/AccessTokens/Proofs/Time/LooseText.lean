import AccessTokens.Proofs.Time.RowText

/-!
# Instants in JSON

In JSON an instant is text with the zone `Z`, and the loose reader takes it back, for every year of the
calendar: the year has four digits or a sign (`looseYear_text`), none of the parts has a blank before it,
and what the parts fill in is what the strict reader would have filled in (`Instant.reading`), which
names the instant that was written. So reading is inverse to writing up to `Instant.asWritten`
(`readLenient?_zulu`), and all that is read has a text of its own (`isWritable_of_readLenient?`).
-/

namespace AccessTokens.Time

open Text (Reader)

/-! ### Parts -/

theorem isBlank_of_isDigit {c : Char} (h : c.isDigit = true) : Text.isBlank c = false := by
  have hrange : 48 ≤ c.toNat ∧ c.toNat ≤ 57 := by
    simpa [Char.isDigit, UInt32.le_iff_toNat_le] using h
  rw [Text.isBlank, List.any_eq_false]
  -- the digits lie between the ranges of blanks
  intro range hmem
  have hout : range.2 < 48 ∨ 57 < range.1 := by
    revert range
    decide
  simp only [Bool.and_eq_true, decide_eq_true_eq]
  omega

/-- Where no blank stands, none is taken. The loose reader looks for blanks before every part, and written
texts have none there. -/
theorem skipBlanks_of_head {cs : List Char} (h : ∀ c ∈ cs.head?, Text.isBlank c = false) :
    skipBlanks cs = some ((), cs) := by
  rw [skipBlanks, Text.trimStart_eq_self h]

theorem head_append_of_digits {ds : List Char} (hne : ds ≠ []) (h : ∀ c ∈ ds, c.isDigit = true)
    (rest : List Char) : ∀ c ∈ (ds ++ rest).head?, c.isDigit = true := by
  cases ds with
  | nil => exact absurd rfl hne
  | cons d ds =>
    rintro _ ⟨⟩
    exact h d List.mem_cons_self

theorem fixed_ne_nil {width n : Nat} (hw : 0 < width) : Decimal.fixed width n ≠ [] := by
  rw [ne_eq, ← List.length_eq_zero_iff, Decimal.length_fixed]
  omega

theorem head_fixed {width n : Nat} (hw : 0 < width) (rest : List Char) :
    ∀ c ∈ (Decimal.fixed width n ++ rest).head?, c.isDigit = true :=
  head_append_of_digits (fixed_ne_nil hw) (fun _ => Decimal.isDigit_of_mem_fixed) rest

theorem looseField_fixed {n : Nat} (h : n < 10 ^ 2) (rest : List Char) :
    looseField (Decimal.fixed 2 n ++ rest) = some (n, rest) := by
  have hskip : skipBlanks (Decimal.fixed 2 n ++ rest) = some ((), Decimal.fixed 2 n ++ rest) :=
    skipBlanks_of_head fun c hc => isBlank_of_isDigit (head_fixed (by decide) rest c hc)
  rw [looseField, Reader.bind_of_apply hskip]
  exact readField_fixed false (by decide) h rest

theorem looseChar_cons {c : Char} (h : Text.isBlank c = false) (rest : List Char) :
    looseChar c (c :: rest) = some ((), rest) := by
  have hskip : skipBlanks (c :: rest) = some ((), c :: rest) :=
    skipBlanks_of_head (by rintro _ ⟨⟩; exact h)
  rw [looseChar, Reader.bind_of_apply hskip, Reader.char_cons]

/-- A year with a sign has at least four digits and no more than it needs. What matters to a reader is that
there are some, and that they have the value of the year without its sign. -/
theorem yearText_of_signed {y : Int} (h : ¬ (0 ≤ y ∧ y ≤ 9999)) :
    ∃ ds, yearText y = (if y < 0 then '-' else '+') :: ds ∧ ds ≠ [] ∧
      (∀ c ∈ ds, c.isDigit = true) ∧ Decimal.value ds = y.natAbs := by
  refine ⟨_, if_neg h, ?_, ?_, ?_⟩
  · simp [Decimal.ofNat_ne_nil]
  · intro c hc
    rcases List.mem_append.1 hc with hc | hc
    · rw [List.eq_of_mem_replicate hc]
      rfl
    · exact Decimal.isDigit_of_mem_ofNat hc
  · rw [Decimal.value_zeros_append, Decimal.value_ofNat]

/-- A year is read as it was written, if no digit follows. A hyphen follows in every text of an instant.
Without it the digits of a long year would not end. -/
theorem looseYear_text (y : Int) {rest : List Char} (hrest : ∀ c ∈ rest.head?, c.isDigit = false) :
    looseYear (yearText y ++ rest) = some (y, rest) := by
  -- The reader decides by the first character: a digit begins a year of four digits, and a sign any other
  -- one.
  by_cases h : 0 ≤ y ∧ y ≤ 9999
  · have htext : yearText y = Decimal.fixed 4 y.toNat := if_pos h
    have hback : ((y.toNat : Nat) : Int) = y := Int.toNat_of_nonneg h.1
    have hdigit : ∀ c ∈ (Decimal.fixed 4 y.toNat ++ rest).head?, c.isDigit = true :=
      head_fixed (by decide) rest
    have hskip : skipBlanks (Decimal.fixed 4 y.toNat ++ rest) =
        some ((), Decimal.fixed 4 y.toNat ++ rest) :=
      skipBlanks_of_head fun c hc => isBlank_of_isDigit (hdigit c hc)
    have hunsigned : ¬ ((Decimal.fixed 4 y.toNat ++ rest).head? = some '-' ∨
        (Decimal.fixed 4 y.toNat ++ rest).head? = some '+') := by
      rintro (hc | hc)
      · exact absurd (hdigit _ hc) (by decide)
      · exact absurd (hdigit _ hc) (by decide)
    rw [looseYear, htext, Reader.bind_of_apply hskip, Reader.bind_of_apply (Reader.peek_apply _),
      if_neg hunsigned,
      Reader.bind_of_apply (readField_fixed false (by decide) (by omega) rest), hback]
    rfl
  · obtain ⟨ds, htext, hne, hdigits, hvalue⟩ := yearText_of_signed h
    have hrun : Reader.run Char.isDigit (ds ++ rest) = some (ds, rest) :=
      Reader.run_append hdigits hrest
    -- the sign tells whether the year is negative
    have hsigned {sign : Char} (hsign : sign = '-' ∨ sign = '+') :
        looseYear (sign :: (ds ++ rest)) =
          some (if sign = '-' then -(y.natAbs : Int) else y.natAbs, rest) := by
      have hskip : skipBlanks (sign :: (ds ++ rest)) = some ((), sign :: (ds ++ rest)) := by
        refine skipBlanks_of_head ?_
        rintro _ ⟨⟩
        rcases hsign with rfl | rfl <;> decide
      have hpeek : (sign :: (ds ++ rest)).head? = some '-' ∨
          (sign :: (ds ++ rest)).head? = some '+' := hsign.imp (congrArg some) (congrArg some)
      rw [looseYear, Reader.bind_of_apply hskip, Reader.bind_of_apply (Reader.peek_apply _),
        if_pos hpeek, Reader.bind_of_apply (Reader.satisfying_cons rfl _),
        Reader.bind_of_apply hrun, if_neg hne, hvalue]
      rfl
    rw [htext, List.cons_append]
    by_cases hneg : y < 0
    · rw [if_pos hneg, hsigned (.inl rfl), if_pos rfl]
      congr 2
      omega
    · rw [if_neg hneg, hsigned (.inr rfl), if_neg (by decide)]
      congr 2
      omega

theorem looseZone_zulu : looseZone ['Z'] = some (0, []) := by
  decide

/-! ### The whole text -/

/-- The text of an instant is read part by part as it was written. All years are read, since the loose form
has signs and any number of digits for them. -/
theorem lenientReading_text (t : Instant) :
    lenientReading (t.text ++ ['Z']) = some (t.reading, []) := by
  -- every part but the year fits into the digits that it was written with
  have hmonth := t.month_lt
  have hday : t.date.day < 10 ^ 2 := by have := t.day_le; omega
  have hsec := t.secondOfDay_lt
  have hnanos : t.nanos % nanosPerSecond < nanosPerSecond := Nat.mod_lt _ (by decide)
  have hleap : t.nanos / nanosPerSecond ≤ 1 := by
    have := t.inRange
    rw [nanosPerSecond] at *
    omega
  rw [Instant.text, dateText, clockText]
  change lenientReading (yearText t.year ++ '-' :: Decimal.fixed 2 t.date.month ++
    '-' :: Decimal.fixed 2 t.date.day ++ 'T' :: (Decimal.fixed 2 (t.secondOfDay / 3600) ++
      ':' :: Decimal.fixed 2 (t.secondOfDay / 60 % 60) ++
      ':' :: Decimal.fixed 2 (t.secondOfDay % 60 + t.nanos / nanosPerSecond) ++
      fractionText (t.nanos % nanosPerSecond)) ++ ['Z']) = _
  simp only [List.append_assoc, List.cons_append]
  have hhyphen : Text.isBlank '-' = false := by decide
  have hcolon : Text.isBlank ':' = false := by decide
  -- a hyphen ends the year, and from there on each part is as wide as in a row
  rw [lenientReading, Reader.bind_of_apply (looseYear_text t.year (by rintro _ ⟨⟩; rfl)),
    Reader.bind_of_apply (looseChar_cons hhyphen _),
    Reader.bind_of_apply (looseField_fixed hmonth _),
    Reader.bind_of_apply (looseChar_cons hhyphen _),
    Reader.bind_of_apply (looseField_fixed hday _),
    Reader.bind_of_apply (Reader.satisfying_cons (by rfl) _),
    Reader.bind_of_apply (looseField_fixed (by omega) _),
    Reader.bind_of_apply (looseChar_cons hcolon _),
    Reader.bind_of_apply (looseField_fixed (by omega) _),
    Reader.bind_of_apply (looseChar_cons hcolon _),
    Reader.bind_of_apply (looseField_fixed (by omega) _),
    Reader.bind_of_apply (readFraction_text hnanos (by simp)),
    Reader.bind_of_apply looseZone_zulu]
  rfl

/-- **Every instant reads back.** The text of an instant in JSON is read as the instant that it says. -/
theorem Instant.readLenient?_zulu (t : Instant) : readLenient? t.zulu = some t.asWritten := by
  rw [readLenient?, zulu, String.toList_ofList, Reader.whole?_of_apply (lenientReading_text t)]
  exact instant?_reading t

/-- The leap seconds that are read prolong the last second of a minute, in whatever zone: zones are ahead
of UTC by whole minutes. -/
theorem Reading.isWritable_of_instant? {r : Reading} {t : Instant} (h : r.instant? = some t) :
    t.IsWritable := by
  unfold instant? at h
  dsimp only at h
  obtain ⟨⟨-, -, -, -, -, hnanos, -⟩, hparts⟩ := Option.ite_none_right_eq_some.1 h
  obtain ⟨hseconds, hfraction⟩ := Instant.ofParts?_eq_some_iff.1 hparts
  unfold Instant.IsWritable
  by_cases hleap : r.second = 60
  · -- the second 60 of a reading is after the second 59, and all else is whole minutes
    right
    omega
  · left
    rw [hfraction, if_neg hleap]
    exact hnanos

theorem isWritable_of_readLenient? {s : String} {t : Instant} (h : readLenient? s = some t) :
    t.IsWritable := by
  obtain ⟨r, -, hr⟩ := Option.bind_eq_some_iff.1 h
  exact r.isWritable_of_instant? hr

end AccessTokens.Time
