/-!
# Instants and durations

An instant is a number of whole seconds since 1970-01-01T00:00:00Z and a number of nanoseconds. The
nanoseconds of an ordinary instant are below one thousand million; those of a leap second count on from
there, so that a leap second lies between the second that it prolongs and the next one. Any second may be
prolonged, although the leap seconds of the calendar, and those that a text can say, prolong the last
second of a minute. Instants are ordered by their seconds, then by their nanoseconds.

Instants run from the first second of the year -262143 to the last nanosecond of the year 262142, and
every instant is in that range by its type. A sum that leaves the range has no instant (`Instant.add?`).
-/

namespace AccessTokens.Time

/-- The number of nanoseconds in a second. -/
def nanosPerSecond : Nat := 1000000000

/-- The first second of the year -262143. -/
def minSeconds : Int := -8334601228800

/-- The last second of the year 262142. -/
def maxSeconds : Int := 8210266876799

/-- A point in time, in UTC. -/
@[ext] structure Instant where
  /-- Whole seconds since 1970-01-01T00:00:00Z. -/
  seconds : Int
  /-- Nanoseconds after that second, counting on through a leap second. -/
  nanos : Nat
  /-- An instant is in the range of the calendar, and a leap second is no longer than a second. -/
  inRange : minSeconds ≤ seconds ∧ seconds ≤ maxSeconds ∧ nanos < 2 * nanosPerSecond
  deriving DecidableEq

/-- A length of time that is not negative. -/
@[ext] structure Duration where
  /-- Whole seconds. -/
  seconds : Nat
  /-- Nanoseconds after those seconds. -/
  nanos : Nat
  /-- The nanoseconds do not reach a second. -/
  nanos_lt : nanos < nanosPerSecond
  deriving DecidableEq

namespace Instant

/-- The instant of some seconds and nanoseconds, if it is in range. -/
def ofParts? (seconds : Int) (nanos : Nat) : Option Instant :=
  if h : minSeconds ≤ seconds ∧ seconds ≤ maxSeconds ∧ nanos < 2 * nanosPerSecond then
    some ⟨seconds, nanos, h⟩
  else
    none

/-- The start of 1970, in UTC. -/
def epoch : Instant := ⟨0, 0, by decide⟩

instance : Inhabited Instant := ⟨epoch⟩

instance : LT Instant :=
  ⟨fun a b => a.seconds < b.seconds ∨ a.seconds = b.seconds ∧ a.nanos < b.nanos⟩

instance : LE Instant :=
  ⟨fun a b => a.seconds < b.seconds ∨ a.seconds = b.seconds ∧ a.nanos ≤ b.nanos⟩

theorem lt_def {a b : Instant} :
    a < b ↔ a.seconds < b.seconds ∨ a.seconds = b.seconds ∧ a.nanos < b.nanos := Iff.rfl

theorem le_def {a b : Instant} :
    a ≤ b ↔ a.seconds < b.seconds ∨ a.seconds = b.seconds ∧ a.nanos ≤ b.nanos := Iff.rfl

instance (a b : Instant) : Decidable (a < b) := decidable_of_iff _ lt_def.symm

instance (a b : Instant) : Decidable (a ≤ b) := decidable_of_iff _ le_def.symm

theorem not_lt {a b : Instant} : ¬ a < b ↔ b ≤ a := by
  rw [lt_def, le_def]; omega

theorem le_refl (a : Instant) : a ≤ a := by rw [le_def]; omega

theorem lt_of_lt_of_le {a b c : Instant} (hab : a < b) (hbc : b ≤ c) : a < c := by
  rw [lt_def] at *; rw [le_def] at hbc; omega

/-- The nanoseconds since 1970-01-01T00:00:00Z. -/
def toNanos (t : Instant) : Int := t.seconds * nanosPerSecond + t.nanos

/-- The instant a duration later, if it is in range. From within a leap second it may still lie in that
leap second. Otherwise the leap second does not count: the sum is the one from the second that it
prolongs, at the same fraction. -/
def add? (t : Instant) (d : Duration) : Option Instant :=
  if nanosPerSecond ≤ t.nanos ∧ d.seconds = 0 ∧ t.nanos + d.nanos < 2 * nanosPerSecond then
    ofParts? t.seconds (t.nanos + d.nanos)
  else
    let nanos := t.nanos % nanosPerSecond + d.nanos
    ofParts? (t.seconds + d.seconds + (nanos / nanosPerSecond : Nat)) (nanos % nanosPerSecond)

theorem ofParts?_eq_some_iff {s : Int} {n : Nat} {t : Instant} :
    ofParts? s n = some t ↔ t.seconds = s ∧ t.nanos = n := by
  unfold ofParts?
  split
  · rename_i h
    constructor
    · intro ht; cases ht; exact ⟨rfl, rfl⟩
    · rintro ⟨rfl, rfl⟩; rfl
  · rename_i h
    simp only [reduceCtorEq, false_iff, not_and]
    rintro rfl rfl
    exact h t.inRange

end Instant

namespace Duration

/-- The duration of zero. -/
def zero : Duration := ⟨0, 0, by decide⟩

/-- A number of whole seconds. -/
def ofSeconds (seconds : Nat) : Duration := ⟨seconds, 0, by decide⟩

/-- The nanoseconds in a duration. -/
def toNanos (d : Duration) : Nat := d.seconds * nanosPerSecond + d.nanos

theorem toNanos_eq_zero_iff {d : Duration} : d.toNanos = 0 ↔ d = zero := by
  simp only [toNanos, Duration.ext_iff, zero, nanosPerSecond]
  omega

end Duration

end AccessTokens.Time
