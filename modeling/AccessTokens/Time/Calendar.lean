/-!
# The calendar

Dates of the proleptic Gregorian calendar, with a year zero and negative years, and their day numbers:
day 0 is 1970-01-01.

Both directions count in years that begin on the first of March, so that the day a leap year adds comes
last. Four hundred such years are always 146097 days: four centuries of 36524 days and one more day,
each century of groups of four years with 1461 days, the last one a day short. Main statements: the date
of a day number has that day number (`dayNumber_ofDayNumber`) and is a date of the calendar
(`valid_ofDayNumber`).
-/

namespace AccessTokens.Time

/-- A day by its year, month and day of the month. -/
structure Date where
  year : Int
  month : Nat
  day : Nat
  deriving DecidableEq, Repr

/-- Every fourth year is a leap year, except the hundredth ones that are not four-hundredth ones. -/
def isLeapYear (year : Int) : Bool := year % 4 = 0 && (year % 100 ≠ 0 || year % 400 = 0)

/-- The number of days of a month from 1 to 12. -/
def daysInMonth (year : Int) (month : Nat) : Nat :=
  if month = 2 then (if isLeapYear year then 29 else 28)
  else if month = 4 ∨ month = 6 ∨ month = 9 ∨ month = 11 then 30
  else 31

/-- A date of the calendar has a month from 1 to 12 and a day of that month. -/
def Date.Valid (d : Date) : Prop :=
  1 ≤ d.month ∧ d.month ≤ 12 ∧ 1 ≤ d.day ∧ d.day ≤ daysInMonth d.year d.month

instance (d : Date) : Decidable d.Valid := inferInstanceAs (Decidable (_ ∧ _))

/-- The number of days from 0000-03-01 to 1970-01-01. -/
def epochDay : Int := 719468

/-- The days from 1970-01-01 to a date. -/
def Date.dayNumber (d : Date) : Int :=
  let year := if d.month ≤ 2 then d.year - 1 else d.year
  let month : Int := if d.month ≤ 2 then d.month + 9 else d.month - 3
  365 * year + year / 4 - year / 100 + year / 400 + (153 * month + 2) / 5 + (d.day - 1) - epochDay

/-- The year of a cycle of four hundred, and the day of that year, in which a day of the cycle lies. -/
def yearAndDay (dayOfCycle : Int) : Int × Int :=
  -- The last day of a cycle and of a leap year would start a fifth century and a fifth year.
  let century := min (dayOfCycle / 36524) 3
  let dayOfCentury := dayOfCycle - 36524 * century
  let group := dayOfCentury / 1461
  let dayOfGroup := dayOfCentury % 1461
  let year := min (dayOfGroup / 365) 3
  (100 * century + 4 * group + year, dayOfGroup - 365 * year)

/-- The date of a day of a year that begins on the first of March. -/
def Date.ofMarchYear (year day : Int) : Date :=
  -- Five months from March or August on have 153 days: 31, 30, 31, 30, 31.
  let month := (5 * day + 2) / 153
  { year := if month < 10 then year else year + 1
    month := (if month < 10 then month + 3 else month - 9).toNat
    day := (day - (153 * month + 2) / 5 + 1).toNat }

/-- The date a number of days after 1970-01-01. -/
def Date.ofDayNumber (n : Int) : Date :=
  let yearDay := yearAndDay ((n + epochDay) % 146097)
  Date.ofMarchYear (400 * ((n + epochDay) / 146097) + yearDay.1) yearDay.2

/-- A day of the cycle by its century, its group of four years, its year of the group and its day of
that year. The day that only a leap year has comes last in a group, and not in the last group of the
first three centuries. -/
theorem exists_parts {d : Int} (h0 : 0 ≤ d) (h1 : d < 146097) :
    ∃ c g y r : Int, yearAndDay d = (100 * c + 4 * g + y, r) ∧
      d = 36524 * c + 1461 * g + 365 * y + r ∧ 0 ≤ c ∧ c ≤ 3 ∧ 0 ≤ g ∧ g ≤ 24 ∧ 0 ≤ y ∧ y ≤ 3 ∧
      0 ≤ r ∧ (r < 365 ∨ r = 365 ∧ y = 3 ∧ (g < 24 ∨ c = 3)) := by
  refine ⟨_, _, _, _, rfl, ?_⟩
  -- Each part is bounded by itself, since together the divisions are too many for one step.
  generalize hc : min (d / 36524) 3 = c
  have hc' : 0 ≤ c ∧ c ≤ 3 ∧ 0 ≤ d - 36524 * c ∧
      (d - 36524 * c < 36524 ∨ c = 3 ∧ d - 36524 * c = 36524) := by omega
  generalize he : d - 36524 * c = e at *
  have hg : 0 ≤ e / 1461 ∧ e / 1461 ≤ 24 := by omega
  generalize hf : e % 1461 = f
  generalize hg' : e / 1461 = g at *
  have hef : e = 1461 * g + f ∧ 0 ≤ f ∧ f < 1461 := by omega
  generalize hy : min (f / 365) 3 = y
  have hy' : 0 ≤ y ∧ y ≤ 3 ∧ 0 ≤ f - 365 * y ∧ (f - 365 * y < 365 ∨ y = 3 ∧ f = 1460) := by omega
  clear hc hf hg' hy
  omega

/-- The days before a year of a cycle, and the day of that year, add up to the day of the cycle. -/
theorem yearAndDay_sum {d : Int} (h0 : 0 ≤ d) (h1 : d < 146097) :
    365 * (yearAndDay d).1 + (yearAndDay d).1 / 4 - (yearAndDay d).1 / 100 + (yearAndDay d).2 = d := by
  obtain ⟨c, g, y, r, hp, hd, hb⟩ := exists_parts h0 h1
  rw [hp]
  have h4 : (100 * c + 4 * g + y) / 4 = 25 * c + g := by omega
  have h100 : (100 * c + 4 * g + y) / 100 = c := by omega
  simp only [h4, h100]
  omega

/-- The year of a cycle is one of four hundred. -/
theorem yearAndDay_year {d : Int} (h0 : 0 ≤ d) (h1 : d < 146097) :
    0 ≤ (yearAndDay d).1 ∧ (yearAndDay d).1 < 400 := by
  obtain ⟨c, g, y, r, hp, -, hb⟩ := exists_parts h0 h1
  rw [hp]
  dsimp only
  omega

/-- The day of a year is one of 365, or the last one of a year that ends in a leap day. -/
theorem yearAndDay_day {d : Int} (h0 : 0 ≤ d) (h1 : d < 146097) :
    0 ≤ (yearAndDay d).2 ∧ ((yearAndDay d).2 < 365 ∨
      (yearAndDay d).2 = 365 ∧ isLeapYear ((yearAndDay d).1 + 1) = true) := by
  obtain ⟨c, g, y, r, hp, -, hc0, hc3, hg0, hg, hy0, hy3, hr0, hr⟩ := exists_parts h0 h1
  rw [hp]
  refine ⟨hr0, ?_⟩
  rcases hr with hr | ⟨hr, rfl, hlast⟩
  · exact Or.inl hr
  · refine Or.inr ⟨hr, ?_⟩
    have h4 : (100 * c + 4 * g + 3 + 1) % 4 = 0 := by omega
    have h100 : (100 * c + 4 * g + 3 + 1) % 100 ≠ 0 ∨ (100 * c + 4 * g + 3 + 1) % 400 = 0 := by
      omega
    simpa [isLeapYear, h4] using h100

/-- The day number of a day of a year that begins on the first of March. -/
theorem dayNumber_ofMarchYear (y : Int) {d : Int} (h0 : 0 ≤ d) (h1 : d ≤ 365) :
    (Date.ofMarchYear y d).dayNumber = 365 * y + y / 4 - y / 100 + y / 400 + d - epochDay := by
  have hm : 0 ≤ (5 * d + 2) / 153 ∧ (5 * d + 2) / 153 ≤ 11 := by omega
  have hday : 0 ≤ d - (153 * ((5 * d + 2) / 153) + 2) / 5 := by omega
  obtain ⟨m, hmd⟩ : ∃ m, (5 * d + 2) / 153 = m := ⟨_, rfl⟩
  simp only [hmd] at hm hday
  simp only [Date.ofMarchYear, Date.dayNumber, hmd]
  by_cases hlt : m < 10
  · have h2 : ¬ (m + 3).toNat ≤ 2 := by omega
    have e1 : ((m + 3).toNat : Int) = m + 3 := by omega
    simp only [hlt, if_true, h2, if_false, e1]
    have : m + 3 - 3 = m := by omega
    rw [this]
    omega
  · have h2 : (m - 9).toNat ≤ 2 := by omega
    have e1 : ((m - 9).toNat : Int) = m - 9 := by omega
    simp only [hlt, if_false, h2, if_true, e1]
    have : m - 9 + 9 = m := by omega
    have : y + 1 - 1 = y := by omega
    simp only [*]
    omega

/-- A day of a year that begins on the first of March is a date, the last one if the next year is a
leap year. -/
theorem valid_ofMarchYear {y d : Int} (h0 : 0 ≤ d)
    (h1 : d < 365 ∨ d = 365 ∧ isLeapYear (y + 1) = true) : (Date.ofMarchYear y d).Valid := by
  have hm : 0 ≤ (5 * d + 2) / 153 ∧ (5 * d + 2) / 153 ≤ 11 := by omega
  simp only [Date.ofMarchYear, Date.Valid, daysInMonth]
  by_cases hlt : (5 * d + 2) / 153 < 10
  · simp only [hlt, if_true]
    refine ⟨by omega, by omega, by omega, ?_⟩
    split
    · omega
    · split <;> omega
  · simp only [hlt, if_false]
    refine ⟨by omega, by omega, by omega, ?_⟩
    rcases h1 with hd | ⟨rfl, hl⟩
    · split
      · split <;> omega
      · split <;> omega
    · simp [hl]

/-- The date of a day number has that day number. -/
theorem dayNumber_ofDayNumber (n : Int) : (Date.ofDayNumber n).dayNumber = n := by
  have hd0 : 0 ≤ (n + epochDay) % 146097 := by omega
  have hd1 : (n + epochDay) % 146097 < 146097 := by omega
  have hs := yearAndDay_sum hd0 hd1
  have hy := yearAndDay_year hd0 hd1
  have hd := yearAndDay_day hd0 hd1
  rw [Date.ofDayNumber, dayNumber_ofMarchYear _ hd.1 (by omega)]
  omega

/-- The date of a day number is a date of the calendar. -/
theorem valid_ofDayNumber (n : Int) : (Date.ofDayNumber n).Valid := by
  have hd0 : 0 ≤ (n + epochDay) % 146097 := by omega
  have hd1 : (n + epochDay) % 146097 < 146097 := by omega
  have hd := yearAndDay_day hd0 hd1
  refine valid_ofMarchYear hd.1 ?_
  rcases hd.2 with hd | ⟨hd, hl⟩
  · exact Or.inl hd
  · refine Or.inr ⟨hd, ?_⟩
    generalize (yearAndDay ((n + epochDay) % 146097)).1 = y at hl
    generalize (n + epochDay) / 146097 = cy
    have h4 : (400 * cy + y + 1) % 4 = (y + 1) % 4 := by omega
    have h100 : (400 * cy + y + 1) % 100 = (y + 1) % 100 := by omega
    have h400 : (400 * cy + y + 1) % 400 = (y + 1) % 400 := by omega
    rw [← hl]
    simp only [isLeapYear, h4, h100, h400]

end AccessTokens.Time
