import AccessTokens.Time.Timestamp

/-!
# Instants and their nanoseconds

Away from leap seconds an instant is its number of nanoseconds since 1970. The numbers that occur are an
interval (`exists_toNanos_iff`), and adding a duration adds its nanoseconds, with no instant as the
answer exactly when the sum lies beyond the interval (`add?_eq_some_iff`, `exists_add?_iff`).

A leap second has nanoseconds of its own, so that `toNanos` no longer follows the order around it. Read
on a clock that stands still until a leap second is over (`haltedNanos`), instants are in order again:
an ordinary instant is before another one when its nanoseconds are before what that clock shows
(`lt_iff_toNanos_lt`).
-/

namespace AccessTokens.Time.Instant

/-- An ordinary instant is not within a leap second. -/
def IsOrdinary (t : Instant) : Prop := t.nanos < nanosPerSecond

instance (t : Instant) : Decidable t.IsOrdinary := Nat.decLt _ _

/-- The last ordinary instant of the calendar. -/
def latest : Instant := ⟨maxSeconds, nanosPerSecond - 1, by decide⟩

theorem toNanos_latest : latest.toNanos = (maxSeconds + 1) * nanosPerSecond - 1 := rfl

example : latest.zulu = "+262142-12-31T23:59:59.999999999Z" := by decide +kernel

/-- The nanoseconds since 1970-01-01T00:00:00Z on a clock that is set to the second after a leap second
when the leap second begins, and then stands still until it is over. -/
def haltedNanos (t : Instant) : Int := min t.toNanos ((t.seconds + 1) * nanosPerSecond)

variable {t u : Instant} {d : Duration}

/-! ### The order -/

theorem haltedNanos_of_isOrdinary (h : t.IsOrdinary) : t.haltedNanos = t.toNanos := by
  unfold IsOrdinary at h
  have hle : t.toNanos ≤ (t.seconds + 1) * nanosPerSecond := by
    rw [toNanos, Int.add_mul, Int.one_mul]
    omega
  exact Int.min_eq_left hle

theorem haltedNanos_of_not_isOrdinary (h : ¬ t.IsOrdinary) :
    t.haltedNanos = (t.seconds + 1) * nanosPerSecond := by
  unfold IsOrdinary at h
  have hle : (t.seconds + 1) * nanosPerSecond ≤ t.toNanos := by
    rw [toNanos, Int.add_mul, Int.one_mul]
    omega
  exact Int.min_eq_right hle

/-- A leap second comes after every ordinary instant of its second and before the next second. On the halted
clock it is as late as the next second, so that ordinary instants before it are before that. -/
theorem lt_iff_toNanos_lt (ht : t.IsOrdinary) : t < u ↔ t.toNanos < u.haltedNanos := by
  unfold IsOrdinary nanosPerSecond at ht
  rw [lt_def]
  -- The order is by seconds first. In an ordinary instant the nanoseconds do not reach the next second, so
  -- this is the order of the sums.
  by_cases hu : u.IsOrdinary
  · rw [haltedNanos_of_isOrdinary hu]
    unfold IsOrdinary nanosPerSecond at hu
    unfold toNanos nanosPerSecond
    omega
  · -- `t` is before the end of the second exactly when it is not in a later one
    rw [haltedNanos_of_not_isOrdinary hu]
    unfold IsOrdinary nanosPerSecond at hu
    unfold toNanos nanosPerSecond
    omega

/-- The numbers of nanoseconds that are ordinary instants. There is no gap between them: every number from
the first to the last one is an instant. -/
theorem exists_toNanos_iff {n : Int} :
    (∃ t : Instant, t.IsOrdinary ∧ t.toNanos = n) ↔
      minSeconds * nanosPerSecond ≤ n ∧ n ≤ latest.toNanos := by
  constructor
  · rintro ⟨t, ht, rfl⟩
    have hrange := t.inRange
    unfold IsOrdinary nanosPerSecond at ht
    rw [toNanos_latest]
    unfold toNanos
    unfold minSeconds maxSeconds nanosPerSecond at *
    omega
  · rintro ⟨hleast, hmost⟩
    rw [toNanos_latest] at hmost
    unfold minSeconds maxSeconds nanosPerSecond at *
    -- the seconds are the quotient, and the nanoseconds what is left
    refine ⟨⟨n / 1000000000, (n % 1000000000).toNat, ?_⟩, ?_, ?_⟩
    · unfold minSeconds maxSeconds nanosPerSecond
      omega
    · show (n % 1000000000).toNat < nanosPerSecond
      unfold nanosPerSecond
      omega
    · show n / 1000000000 * (nanosPerSecond : Int) + (n % 1000000000).toNat = n
      unfold nanosPerSecond
      omega

/-! ### Addition -/

/-- Away from leap seconds a duration is added to the nanosecond. The sum is an ordinary instant again, so
it is told by its nanoseconds. -/
theorem add?_eq_some_iff (ht : t.IsOrdinary) :
    t.add? d = some u ↔ u.IsOrdinary ∧ u.toNanos = t.toNanos + d.toNanos := by
  have hd := d.nanos_lt
  unfold IsOrdinary at *
  -- there is no leap second to stay in, and the nanoseconds carry over to the seconds
  rw [add?, if_neg (fun h => absurd h.1 (Nat.not_le.2 ht)), ofParts?_eq_some_iff]
  unfold toNanos Duration.toNanos
  unfold nanosPerSecond at *
  constructor
  · rintro ⟨hseconds, hnanos⟩
    omega
  · rintro ⟨hordinary, hsum⟩
    omega

/-- A sum exists exactly when it is not after the last instant of the calendar. -/
theorem exists_add?_iff (ht : t.IsOrdinary) :
    (∃ u, t.add? d = some u) ↔ t.toNanos + d.toNanos ≤ latest.toNanos := by
  have hleast := (exists_toNanos_iff.1 ⟨t, ht, rfl⟩).1
  simp only [add?_eq_some_iff ht, exists_toNanos_iff]
  -- a sum is not before `t`, and so not before the first instant
  omega

/-- What can be added to an ordinary instant can be added to every earlier instant, also to one within a
leap second. -/
theorem exists_add?_of_le (ht : t.IsOrdinary) (hut : u ≤ t) (h : ∃ v, t.add? d = some v) :
    ∃ v, u.add? d = some v := by
  have hsum := (exists_add?_iff ht).1 h
  by_cases hu : u.IsOrdinary
  · have hle : u.toNanos ≤ t.toNanos := by
      rw [← not_lt, lt_iff_toNanos_lt ht, haltedNanos_of_isOrdinary hu] at hut
      omega
    rw [exists_add?_iff hu]
    omega
  · -- the second after a leap second is not after `t`, and the sum counts from there at the latest
    have hrange := u.inRange
    have hd := d.nanos_lt
    rw [le_def] at hut
    rw [toNanos_latest] at hsum
    unfold toNanos Duration.toNanos at hsum
    unfold IsOrdinary at ht hu
    unfold maxSeconds at hrange hsum
    unfold nanosPerSecond at *
    unfold add? nanosPerSecond
    split
    · refine ⟨⟨u.seconds, u.nanos + d.nanos, ?_⟩, ofParts?_eq_some_iff.2 ⟨rfl, rfl⟩⟩
      unfold maxSeconds nanosPerSecond
      omega
    · refine ⟨⟨_, _, ?_⟩, ofParts?_eq_some_iff.2 ⟨rfl, rfl⟩⟩
      unfold maxSeconds nanosPerSecond
      omega

end AccessTokens.Time.Instant
