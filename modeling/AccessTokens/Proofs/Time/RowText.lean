import AccessTokens.Proofs.Text.Reader
import AccessTokens.Time.Timestamp
import Mathlib.Algebra.Group.Nat.Defs

/-!
# Instants in rows

A row holds an instant as text with the zone `+00:00`, and the strict reader takes it back. The fields are
read one after another, each as it was written, and what they fill in (`Instant.reading`) names an instant
again.

Two things may go wrong on the way. The year is written with four digits for the years 0 to 9999 only, and
the text of any other instant begins with the sign of its year and is refused
(`readStrict?_offsetText_of_not_plain`). And a leap second has a text of its own, the second 60, only where
it prolongs the last second of a minute. Within a minute it is written like the second after it, and this
is what is read (`Instant.asWritten`). So reading is inverse to writing for a year of four digits up to
`asWritten` (`readStrict?_offsetText`), which leaves all instants alone but those
(`Instant.asWritten_eq_self_iff`).
-/

namespace AccessTokens.Time

open Text (Reader)

namespace Instant

/-- The year of an instant has four digits. -/
def HasPlainYear (t : Instant) : Prop := 0 ≤ t.year ∧ t.year ≤ 9999

instance (t : Instant) : Decidable t.HasPlainYear := inferInstanceAs (Decidable (_ ∧ _))

/-- An instant has a text of its own: it is not in a leap second, or the leap second prolongs the last
second of a minute. -/
def IsWritable (t : Instant) : Prop := t.nanos < nanosPerSecond ∨ t.seconds % 60 = 59

instance (t : Instant) : Decidable t.IsWritable := inferInstanceAs (Decidable (_ ∨ _))

/-- The instant that the text of an instant says. A leap second within a minute is written like the
second after it, with the same fraction. -/
def asWritten (t : Instant) : Instant :=
  if h : t.IsWritable then t
  else
    { seconds := t.seconds + 1
      nanos := t.nanos - nanosPerSecond
      inRange := by
        have hrange := t.inRange
        unfold IsWritable at h
        unfold maxSeconds nanosPerSecond at *
        omega }

/-- A row keeps an instant: its text can be read, and says this very instant. -/
def ReadsBack (t : Instant) : Prop := t.HasPlainYear ∧ t.IsWritable

instance (t : Instant) : Decidable t.ReadsBack := inferInstanceAs (Decidable (_ ∧ _))

/-- The date of an instant, in UTC. -/
def date (t : Instant) : Date := Date.ofDayNumber (t.seconds / 86400)

/-- The second of the day of an instant, in UTC. -/
def secondOfDay (t : Instant) : Nat := (t.seconds % 86400).toNat

/-- What the text of an instant reads as. A leap second is counted to the second of the minute, which is
then one more than the clock says. -/
def reading (t : Instant) : Reading where
  year := t.year
  month := t.date.month
  day := t.date.day
  hour := t.secondOfDay / 3600
  minute := t.secondOfDay / 60 % 60
  second := t.secondOfDay % 60 + t.nanos / nanosPerSecond
  nanos := t.nanos % nanosPerSecond
  offset := 0

end Instant

/-! ### The fields -/

/-- A field of `width` digits holds every number below `10 ^ width`, and none of its digits is lost. -/
theorem value_fixed {width n : Nat} (h : n < 10 ^ width) :
    Decimal.value (Decimal.fixed width n) = n := by
  induction width generalizing n with
  | zero =>
    obtain rfl : n = 0 := by simpa using h
    rfl
  | succ width ih =>
    -- the last digit is taken off, and the others hold the tenth
    have hd : n / 10 < 10 ^ width := by
      rw [Nat.pow_succ] at h; exact Nat.div_lt_of_lt_mul (by omega)
    rw [Decimal.fixed, Text.fixedDigits, Decimal.value_append_digitChar _ (Nat.mod_lt _ (by decide)),
      ← Decimal.fixed, ih hd]
    omega

/-- A field that was written in full is read, whether it has to be full or not. It has as many digits as it
may have, so what follows is not taken for more of them. -/
theorem readField_fixed (exact : Bool) {width n : Nat} (hw : 0 < width) (h : n < 10 ^ width)
    (rest : List Char) :
    readField exact width (Decimal.fixed width n ++ rest) = some (n, rest) := by
  -- a strict reader wants all the digits and a loose one at least one of them, and all of them are there
  have hleast : (if exact then width else 1) ≤ (Decimal.fixed width n).length := by
    rw [Decimal.length_fixed]
    split
    · exact Nat.le_refl _
    · exact hw
  have hd := Reader.digits_append _ (Decimal.fixed width n)
    (fun _ hc => Decimal.isDigit_of_mem_fixed hc) hleast rest
  rw [Decimal.length_fixed] at hd
  rw [readField, Reader.bind_of_apply hd, value_fixed h]
  rfl

theorem value_append_zeros (ds : List Char) (k : Nat) :
    Decimal.value (ds ++ List.replicate k '0') = Decimal.value ds * 10 ^ k := by
  -- each zero behind the digits is a factor of ten
  induction k with
  | zero => simp
  | succ k ih =>
    have hzero := Decimal.value_append_digitChar (ds ++ List.replicate k '0') (d := 0) (by decide)
    rw [List.replicate_succ', ← List.append_assoc]
    change Decimal.value (ds ++ List.replicate k '0' ++ [Nat.digitChar 0]) = _
    rw [hzero, ih, Nat.pow_succ, Nat.add_zero, Nat.mul_comm, Nat.mul_assoc]

theorem nanosOfFraction_fixed {width n : Nat} (hw : width ≤ 9) (h : n < 10 ^ width) :
    nanosOfFraction (Decimal.fixed width n) = n * 10 ^ (9 - width) := by
  -- a fraction counts as if it were filled up to nine digits with zeros
  have htake : (Decimal.fixed width n ++ List.replicate 9 '0').take 9 =
      Decimal.fixed width n ++ List.replicate (9 - width) '0' := by
    rw [List.take_append, List.take_of_length_le (by simpa using hw), List.take_replicate,
      Decimal.length_fixed, Nat.min_eq_left (Nat.sub_le 9 width)]
  rw [nanosOfFraction, htake, value_append_zeros, value_fixed h]

/-- A fraction is read as the nanoseconds that were written, if neither a digit nor a point follows. It is
written with 0, 3, 6 or 9 digits, as many as the nanoseconds need. -/
theorem readFraction_text {n : Nat} (h : n < nanosPerSecond) {rest : List Char}
    (hrest : ∀ c ∈ rest.head?, c.isDigit = false ∧ c ≠ '.') :
    readFraction (fractionText n ++ rest) = some (n, rest) := by
  -- a fraction of some width, whichever it is
  have hsome {width m : Nat} (hw : width ≤ 9) (hpos : 0 < width) (hm : m < 10 ^ width)
      (hn : m * 10 ^ (9 - width) = n) :
      readFraction ('.' :: Decimal.fixed width m ++ rest) = some (n, rest) := by
    have hrun : Reader.run Char.isDigit (Decimal.fixed width m ++ rest) =
        some (Decimal.fixed width m, rest) :=
      Reader.run_append (fun _ hc => Decimal.isDigit_of_mem_fixed hc) fun c hc => (hrest c hc).1
    have hne : Decimal.fixed width m ≠ [] := by
      rw [ne_eq, ← List.length_eq_zero_iff, Decimal.length_fixed]
      omega
    rw [readFraction, List.cons_append, Reader.bind_of_apply (Reader.peek_apply _), if_pos (by rfl),
      Reader.bind_of_apply (Reader.char_cons _ _), Reader.bind_of_apply hrun, if_neg hne,
      nanosOfFraction_fixed hw hm, hn]
    rfl
  rw [nanosPerSecond] at h
  rw [fractionText]
  split
  · -- without a fraction, what follows is not taken for one
    next h0 =>
    subst h0
    have hpoint : rest.head? ≠ some '.' := fun hc => (hrest '.' hc).2 rfl
    rw [readFraction, List.nil_append, Reader.bind_of_apply (Reader.peek_apply _), if_neg hpoint]
    rfl
  · split
    · exact hsome (by decide) (by decide) (by omega) (by omega)
    · split
      · exact hsome (by decide) (by decide) (by omega) (by omega)
      · exact hsome (by decide) (by decide) (by omega) (by omega)

theorem readZone_utc : readZone (Reader.char ':') "+00:00".toList = some (0, []) := by
  decide

/-! ### The whole text -/

namespace Instant

variable {t : Instant}

theorem asWritten_of_isWritable (h : t.IsWritable) : t.asWritten = t := dif_pos h

/-- What is written of a leap second within a minute is an ordinary second. So writing it once more makes no
further difference. -/
theorem isWritable_asWritten (t : Instant) : t.asWritten.IsWritable := by
  -- What is moved on to the next second has less than a second left of its two.
  by_cases h : t.IsWritable
  · rwa [asWritten_of_isWritable h]
  · have hrange := t.inRange
    unfold asWritten
    rw [dif_neg h]
    refine .inl ?_
    show t.nanos - nanosPerSecond < nanosPerSecond
    omega

/-- The text of an instant says this very instant exactly when it has a text of its own. -/
theorem asWritten_eq_self_iff : t.asWritten = t ↔ t.IsWritable :=
  ⟨fun h => h ▸ t.isWritable_asWritten, asWritten_of_isWritable⟩

theorem secondOfDay_lt (t : Instant) : t.secondOfDay < 86400 := by
  rw [secondOfDay]
  omega

theorem month_lt (t : Instant) : t.date.month < 10 ^ 2 := by
  obtain ⟨-, hm12, -⟩ := valid_ofDayNumber (t.seconds / 86400)
  rw [date]
  omega

theorem day_le (t : Instant) : t.date.day ≤ 31 := by
  obtain ⟨-, -, -, hd⟩ := valid_ofDayNumber (t.seconds / 86400)
  have : daysInMonth t.date.year t.date.month ≤ 31 := by
    rw [daysInMonth]
    split
    · split <;> omega
    · split <;> omega
  rw [date] at this ⊢
  omega

/-- The instants of the first and of the last second are in the first and in the last year. The reading of
an instant is refused for any other year, and this is why it is never refused for the year. -/
theorem year_bounds (t : Instant) : -262143 ≤ t.year ∧ t.year ≤ 262142 := by
  have hnumber : t.date.dayNumber = t.seconds / 86400 := dayNumber_ofDayNumber _
  obtain ⟨hm1, hm12, hd1, -⟩ : t.date.Valid := valid_ofDayNumber _
  have hd31 := t.day_le
  obtain ⟨hmin, hmax, -⟩ := t.inRange
  rw [minSeconds] at hmin
  rw [maxSeconds] at hmax
  change -262143 ≤ t.date.year ∧ t.date.year ≤ 262142
  -- the years next to the range are a few days off, all others more than a year
  have hyears : (-262143 ≤ t.date.year ∧ t.date.year ≤ 262142) ∨ t.date.year = -262144 ∨
      t.date.year = 262143 ∨ t.date.year < -262144 ∨ 262143 < t.date.year := by omega
  rw [Date.dayNumber, epochDay] at hnumber
  by_cases hearly : t.date.month ≤ 2
  · -- January and February come last in the year that is counted
    have hmonth : 306 ≤ (153 * ((t.date.month : Int) + 9) + 2) / 5 := by omega
    rw [if_pos hearly, if_pos hearly] at hnumber
    omega
  · have hmonth : (153 * ((t.date.month : Int) - 3) + 2) / 5 ≤ 275 := by omega
    rw [if_neg hearly, if_neg hearly] at hnumber
    omega

/-- The fixed form of rows is read field by field as it was written. Only the year may be at fault: every
other field of an instant has its two digits. -/
theorem strictReading_text (h : t.HasPlainYear) :
    strictReading (t.text ++ "+00:00".toList) = some (t.reading, []) := by
  have hyear : t.year.toNat < 10 ^ 4 := by have := h.1; have := h.2; omega
  have hday : t.date.day < 10 ^ 2 := by have := t.day_le; omega
  have hsec := t.secondOfDay_lt
  have hnanos : t.nanos % nanosPerSecond < nanosPerSecond := Nat.mod_lt _ (by decide)
  have hleap : t.nanos / nanosPerSecond ≤ 1 := by
    have := t.inRange
    rw [nanosPerSecond] at *
    omega
  have hyearText : yearText t.year = Decimal.fixed 4 t.year.toNat := if_pos h
  have hback : ((t.year.toNat : Nat) : Int) = t.year := Int.toNat_of_nonneg h.1
  rw [text, dateText, clockText]
  change strictReading (yearText t.year ++ '-' :: Decimal.fixed 2 t.date.month ++
    '-' :: Decimal.fixed 2 t.date.day ++ 'T' :: (Decimal.fixed 2 (t.secondOfDay / 3600) ++
      ':' :: Decimal.fixed 2 (t.secondOfDay / 60 % 60) ++
      ':' :: Decimal.fixed 2 (t.secondOfDay % 60 + t.nanos / nanosPerSecond) ++
      fractionText (t.nanos % nanosPerSecond)) ++ "+00:00".toList) = _
  simp only [hyearText, List.append_assoc, List.cons_append]
  -- each field takes what was written for it and leaves the rest
  rw [strictReading, Reader.bind_of_apply (readField_fixed true (by decide) hyear _),
    Reader.bind_of_apply (Reader.char_cons _ _),
    Reader.bind_of_apply (readField_fixed true (by decide) t.month_lt _),
    Reader.bind_of_apply (Reader.char_cons _ _),
    Reader.bind_of_apply (readField_fixed true (by decide) hday _),
    Reader.bind_of_apply (Reader.satisfying_cons (by rfl) _),
    Reader.bind_of_apply (readField_fixed true (by decide) (by omega) _),
    Reader.bind_of_apply (Reader.char_cons _ _),
    Reader.bind_of_apply (readField_fixed true (by decide) (by omega) _),
    Reader.bind_of_apply (Reader.char_cons _ _),
    Reader.bind_of_apply (readField_fixed true (by decide) (by omega) _),
    Reader.bind_of_apply (readFraction_text hnanos (by simp)),
    Reader.bind_of_apply readZone_utc, Reader.pure_apply, hback]
  rfl

/-- The seconds and nanoseconds of the instant that is written, with the second of the minute cut off at
59 as a reading has it. -/
theorem parts_asWritten (t : Instant) :
    let second := t.secondOfDay % 60 + t.nanos / nanosPerSecond
    t.asWritten.seconds = t.seconds - t.secondOfDay % 60 + (min second 59 : Nat) ∧
      t.asWritten.nanos = t.nanos % nanosPerSecond + if second = 60 then nanosPerSecond else 0 := by
  intro second
  -- The second that is written is that of the minute, or the one after it in a leap second. It is 60 only
  -- at the end of a minute, where the reading goes back to 59 and puts the second to the nanoseconds.
  have hsecond : second = t.secondOfDay % 60 + t.nanos / 1000000000 := rfl
  clear_value second
  have hrange := t.inRange.2.2
  have hminute : (t.secondOfDay : Int) % 60 = t.seconds % 60 := by
    rw [secondOfDay]
    omega
  by_cases h : t.IsWritable
  · -- an ordinary second is below 60, and a leap second is 60
    rw [asWritten_of_isWritable h]
    unfold IsWritable nanosPerSecond at h
    unfold nanosPerSecond at *
    constructor
    · omega
    · split <;> omega
  · -- one second on, which is still in the minute
    unfold asWritten
    rw [dif_neg h]
    unfold IsWritable nanosPerSecond at h
    unfold nanosPerSecond at *
    constructor
    · show t.seconds + 1 = _
      omega
    · show t.nanos - 1000000000 = _
      split <;> omega

/-- What the text of an instant reads as names the instant that was written. Its fields are in their ranges,
since they are those of a date and of a clock, and so the reading is accepted. -/
theorem instant?_reading (t : Instant) : t.reading.instant? = some t.asWritten := by
  have hvalid : t.date.Valid := valid_ofDayNumber _
  have hnumber : t.date.dayNumber = t.seconds / 86400 := dayNumber_ofDayNumber _
  have hsec := t.secondOfDay_lt
  have hday : (t.secondOfDay : Int) = t.seconds % 86400 := by
    rw [secondOfDay]
    omega
  have hrange := t.inRange.2.2
  have hnanos : t.nanos % nanosPerSecond < nanosPerSecond := Nat.mod_lt _ (by decide)
  obtain ⟨hseconds, hfraction⟩ := t.parts_asWritten
  obtain ⟨hy0, hy1⟩ := t.year_bounds
  change (if t.date.Valid ∧ (-262143 ≤ t.year ∧ t.year ≤ 262142) ∧ t.secondOfDay / 3600 < 24 ∧
      t.secondOfDay / 60 % 60 < 60 ∧ t.secondOfDay % 60 + t.nanos / nanosPerSecond ≤ 60 ∧
      t.nanos % nanosPerSecond < nanosPerSecond ∧ (0 : Int).natAbs < 1440 then
    ofParts? (t.date.dayNumber * 86400 + (t.secondOfDay / 3600 * 3600 + t.secondOfDay / 60 % 60 * 60 +
        min (t.secondOfDay % 60 + t.nanos / nanosPerSecond) 59 : Nat) - 0 * 60)
      (t.nanos % nanosPerSecond +
        if t.secondOfDay % 60 + t.nanos / nanosPerSecond = 60 then nanosPerSecond else 0)
    else none) = some t.asWritten
  have hsecond : t.secondOfDay % 60 + t.nanos / nanosPerSecond ≤ 60 := by
    unfold nanosPerSecond at *
    omega
  -- the date is the day of the instant, and the clock is its second of the day
  rw [if_pos ⟨hvalid, by omega, by omega, by omega, hsecond, hnanos, by decide⟩,
    ofParts?_eq_some_iff, hnumber]
  refine ⟨?_, hfraction⟩
  rw [hseconds]
  omega

/-- **A plain year reads back.** The text of an instant in a row is read as the instant that it says. -/
theorem readStrict?_offsetText (h : t.HasPlainYear) : readStrict? t.offsetText = some t.asWritten := by
  rw [readStrict?, offsetText, String.toList_ofList,
    Reader.whole?_of_apply (strictReading_text h)]
  exact instant?_reading t

/-- **Another year does not.** Its text begins with a sign, where the strict form has a digit. -/
theorem readStrict?_offsetText_of_not_plain (h : ¬ t.HasPlainYear) :
    readStrict? t.offsetText = none := by
  -- Four digits are wanted, and the first character is none.
  obtain ⟨sign, rest, htext, hsign⟩ : ∃ sign rest,
      t.text ++ "+00:00".toList = sign :: rest ∧ sign.isDigit = false := by
    have hyear : yearText t.year = _ := if_neg h
    rw [text, dateText]
    change ∃ sign rest, yearText t.year ++ _ ++ _ ++ _ ++ _ = sign :: rest ∧ _
    rw [hyear]
    refine ⟨_, _, rfl, ?_⟩
    split <;> rfl
  have hrefused : readField true 4 (sign :: rest) = none := by
    rw [readField, if_pos rfl]
    exact Reader.bind_of_refused (Reader.digits_of_not_digit (by decide) 4 hsign rest)
  rw [readStrict?, offsetText, String.toList_ofList, htext, strictReading,
    Reader.whole?_of_refused (Reader.bind_of_refused hrefused)]
  rfl

end Instant

end AccessTokens.Time
