import AccessTokens.Policy.Basic
import AccessTokens.Proofs.Time.Addition
import AccessTokens.Record

/-!
# When a token expires

A lifetime is added to the instant of issue under two limits: the span that may be added at all
(`Policy.longestSpan`) and the end of the calendar. The calendar is by far the shorter one, so that a
lifetime that reaches no further than the last instant is never too long to be added
(`le_longestSpan_of_add_le`). What is left is the sum itself (`expiryFrom_eq_some_iff`), and from it the
two consequences for the clock: what may be issued now could have been issued before, and a record is
expired when more than its lifetime has passed (`expiry_is_exact`).
-/

namespace AccessTokens.Policy

open Time (Instant Duration)

variable {p : Policy} {now expiry : Instant}

theorem isUnlimited_iff : p.isUnlimited = true ↔ p.expireAfter = .zero := by
  unfold isUnlimited
  rw [decide_eq_true_iff, Duration.toNanos_eq_zero_iff]

/-- The three answers: no expiry without a lifetime, the sum where it may be built and exists, and
otherwise the one error. -/
theorem expiryFrom_cases (p : Policy) (now : Instant) :
    (p.expireAfter = .zero ∧ p.expiryFrom now = .ok none) ∨
    (p.expireAfter ≠ .zero ∧ p.expireAfter.toNanos ≤ longestSpan ∧
      ∃ expiry, now.add? p.expireAfter = some expiry ∧ p.expiryFrom now = .ok (some expiry)) ∨
    (p.expireAfter ≠ .zero ∧
      (longestSpan < p.expireAfter.toNanos ∨ now.add? p.expireAfter = none) ∧
      p.expiryFrom now = .error .expirationOutOfRange) := by
  -- The two tests of the program, one after the other, and then the sum, which may be none.
  unfold expiryFrom
  rw [Ne, ← isUnlimited_iff]
  split
  · rename_i hunlimited
    exact .inl ⟨hunlimited, rfl⟩
  · rename_i hlimited
    right
    split
    · rename_i hspan
      cases hsum : now.add? p.expireAfter with
      | some expiry => exact .inl ⟨hlimited, hspan, expiry, rfl, rfl⟩
      | none => exact .inr ⟨hlimited, .inr rfl, rfl⟩
    · rename_i hspan
      exact .inr ⟨hlimited, .inl (Nat.lt_of_not_le hspan), rfl⟩

theorem expiryFrom_eq_none_iff : p.expiryFrom now = .ok none ↔ p.expireAfter = .zero := by
  rcases p.expiryFrom_cases now with ⟨h, hanswer⟩ | ⟨h, -, expiry, -, hanswer⟩ | ⟨h, -, hanswer⟩ <;>
    simp [h, hanswer]

/-- A lifetime that does not reach beyond the calendar is not too long to be added. -/
theorem le_longestSpan_of_add_le {d : Duration} (hnow : now.IsOrdinary)
    (h : now.toNanos + d.toNanos ≤ Instant.latest.toNanos) : d.toNanos ≤ longestSpan := by
  have hleast := (Instant.exists_toNanos_iff.1 ⟨now, hnow, rfl⟩).1
  -- the whole calendar is shorter than the longest span
  have hwidth : Instant.latest.toNanos - Time.minSeconds * Time.nanosPerSecond ≤ longestSpan := by
    decide
  omega

/-- At an ordinary instant either limit of a sum means that it is beyond the calendar. The bound on the span
is wider than the calendar, so whatever is beyond it is beyond the calendar too. -/
theorem latest_lt_add {d : Duration} (hnow : now.IsOrdinary)
    (h : longestSpan < d.toNanos ∨ now.add? d = none) :
    Instant.latest.toNanos < now.toNanos + d.toNanos := by
  -- A sum in the calendar would pass both limits.
  refine Int.lt_of_not_ge fun hle => ?_
  rcases h with hlong | hnone
  · exact absurd (le_longestSpan_of_add_le hnow hle) (Nat.not_le.2 hlong)
  · obtain ⟨sum, hsum⟩ := (Instant.exists_add?_iff hnow).2 hle
    rw [hnone] at hsum
    cases hsum

/-- At an ordinary instant the expiry is the sum, to the nanosecond. There is an expiry at all only with a
lifetime, and only if the sum is an instant. -/
theorem expiryFrom_eq_some_iff (hnow : now.IsOrdinary) : p.expiryFrom now = .ok (some expiry) ↔
    p.expireAfter ≠ .zero ∧ expiry.IsOrdinary ∧
      expiry.toNanos = now.toNanos + p.expireAfter.toNanos := by
  rw [← Instant.add?_eq_some_iff hnow]
  rcases p.expiryFrom_cases now with ⟨h, hanswer⟩ | ⟨h, -, sum, hsum, hanswer⟩ | ⟨h, hout, hanswer⟩
  · simp [h, hanswer]
  · simp [h, hsum, hanswer]
  · -- after an error there is no sum, so the iff is between two things that do not hold
    have hnone : now.add? p.expireAfter ≠ some expiry := by
      intro hsum
      have hle := (Instant.exists_add?_iff hnow).1 ⟨expiry, hsum⟩
      exact absurd (latest_lt_add hnow hout) (Int.not_lt.2 hle)
    simp [hanswer, hnone]

/-- At an ordinary instant there is an error exactly when the sum is beyond the calendar. -/
theorem expiryFrom_eq_error_iff (hnow : now.IsOrdinary) (hlimited : p.expireAfter ≠ .zero) :
    p.expiryFrom now = .error .expirationOutOfRange ↔
      Instant.latest.toNanos < now.toNanos + p.expireAfter.toNanos := by
  rcases p.expiryFrom_cases now with ⟨h, -⟩ | ⟨h, -, sum, hsum, hanswer⟩ | ⟨h, hout, hanswer⟩
  · exact absurd h hlimited
  · have hle := (Instant.exists_add?_iff hnow).1 ⟨sum, hsum⟩
    simp [hanswer, hle]
  · simp [hanswer, latest_lt_add hnow hout]

/-- What may be issued at an ordinary instant may be issued at every earlier instant. The earlier instant
may be in a leap second, where the sum counts from the second after it at the latest. -/
theorem expiryFrom_ok_of_le {earlier : Instant} {answer : Option Instant} (hnow : now.IsOrdinary)
    (hle : earlier ≤ now) (h : p.expiryFrom now = .ok answer) :
    ∃ answer', p.expiryFrom earlier = .ok answer' := by
  rcases p.expiryFrom_cases earlier with ⟨-, hanswer⟩ | ⟨-, -, sum, -, hanswer⟩ | ⟨hlimited, hout, -⟩
  · exact ⟨_, hanswer⟩
  · exact ⟨_, hanswer⟩
  · -- the lifetime and the bound on the span are the same, and the earlier sum exists with the later one
    exfalso
    rcases p.expiryFrom_cases now with ⟨hzero, -⟩ | ⟨-, hspan, sum, hsum, -⟩ | ⟨-, -, hanswer⟩
    · exact hlimited hzero
    · obtain ⟨before, hbefore⟩ := Instant.exists_add?_of_le hnow hle ⟨sum, hsum⟩
      rcases hout with hlong | hnone
      · exact absurd hspan (Nat.not_le.2 hlong)
      · rw [hnone] at hbefore
        cases hbefore
    · rw [hanswer] at h
      cases h

/-! ### The clock -/

/-- A record whose expiry is a lifetime after an ordinary instant is expired once the clock shows more. -/
theorem isExpiredAt_iff_toNanos {r : Record} (hexpiry : r.expiresAt = some expiry)
    (hordinary : expiry.IsOrdinary) (u : Instant) :
    r.isExpiredAt u = true ↔ expiry.toNanos < u.haltedNanos := by
  rw [Record.isExpiredAt_iff, ← Instant.lt_iff_toNanos_lt hordinary, hexpiry]
  simp

/-- **When a token expires.** A token that is issued at an ordinary instant never expires exactly when
no lifetime is set. Any other lifetime is added to the nanosecond where the sum is in the calendar, and
where it is not there is no token: the bound on the span that is added takes away none of the sums. So
what may be issued now could have been issued at every earlier instant, and a record with that expiry
is expired exactly when the clock has moved on by more than the lifetime. -/
theorem expiry_is_exact (p : Policy) {now : Instant} (hnow : now.IsOrdinary) :
    (p.expiryFrom now = .ok none ↔ p.expireAfter = .zero) ∧
    (p.expireAfter ≠ .zero →
      (now.toNanos + p.expireAfter.toNanos ≤ Instant.latest.toNanos →
        p.expireAfter.toNanos ≤ longestSpan ∧
          ∃ expiry : Instant, expiry.IsOrdinary ∧
            expiry.toNanos = now.toNanos + p.expireAfter.toNanos ∧
              p.expiryFrom now = .ok (some expiry)) ∧
      (Instant.latest.toNanos < now.toNanos + p.expireAfter.toNanos →
        p.expiryFrom now = .error .expirationOutOfRange)) ∧
    (∀ answer, p.expiryFrom now = .ok answer →
      ∀ earlier ≤ now, ∃ answer', p.expiryFrom earlier = .ok answer') ∧
    (∀ (r : Record) (expiry : Instant), p.expiryFrom now = .ok (some expiry) →
      r.expiresAt = some expiry → ∀ u : Instant,
        (u.IsOrdinary →
          (r.isExpiredAt u = true ↔ p.expireAfter.toNanos < u.toNanos - now.toNanos)) ∧
        (r.isExpiredAt u = true ↔ p.expireAfter.toNanos < u.haltedNanos - now.toNanos)) := by
  refine ⟨expiryFrom_eq_none_iff, fun hlimited => ⟨fun hle => ?_, fun hlt => ?_⟩,
    fun answer hanswer earlier hearlier => expiryFrom_ok_of_le hnow hearlier hanswer, ?_⟩
  · obtain ⟨expiry, hsum⟩ := (Instant.exists_add?_iff hnow).2 hle
    obtain ⟨hordinary, hnanos⟩ := (Instant.add?_eq_some_iff hnow).1 hsum
    exact ⟨le_longestSpan_of_add_le hnow hle, expiry, hordinary, hnanos,
      (expiryFrom_eq_some_iff hnow).2 ⟨hlimited, hordinary, hnanos⟩⟩
  · exact (expiryFrom_eq_error_iff hnow hlimited).2 hlt
  · intro r expiry hanswer hexpiry u
    obtain ⟨-, hordinary, hnanos⟩ := (expiryFrom_eq_some_iff hnow).1 hanswer
    -- a leap second does not count as time that has passed, so this is said of the halted clock; at an
    -- ordinary instant the clock is not halted
    have hexpired : r.isExpiredAt u = true ↔
        p.expireAfter.toNanos < u.haltedNanos - now.toNanos := by
      rw [isExpiredAt_iff_toNanos hexpiry hordinary, hnanos]
      omega
    refine ⟨fun hu => ?_, hexpired⟩
    rw [hexpired, Instant.haltedNanos_of_isOrdinary hu]

/-- Tokens that live for a nanosecond. -/
def briefest : Policy := { expireAfter := ⟨0, 1, by decide⟩ }

/-- The last instant at which such a token may be issued. -/
def lastChance : Instant := ⟨Time.maxSeconds, 999999998, by decide⟩

/-- A leap second at the end of the calendar, after its last ordinary instant. -/
def lastLeap : Instant := ⟨Time.maxSeconds, 1500000000, by decide⟩

/-- The briefest token at the end of the calendar: it may be issued up to a nanosecond before the last
instant, and is then expired in the leap second after it. -/
theorem expiry_is_exact_lastChance :
    lastChance.IsOrdinary ∧ Instant.latest.IsOrdinary ∧ briefest.expireAfter ≠ .zero ∧
      lastChance.toNanos + briefest.expireAfter.toNanos = Instant.latest.toNanos ∧
      briefest.expiryFrom lastChance = .ok (some .latest) ∧
      (∃ answer, briefest.expiryFrom .epoch = .ok answer) ∧
      briefest.expiryFrom .latest = .error .expirationOutOfRange ∧
      (let r := Record.fresh 1 "a" none [] lastChance (some .latest)
       r.isExpiredAt .latest = false ∧ r.isExpiredAt lastLeap = true) := by
  have hchance : lastChance.IsOrdinary := by decide
  have hlatest : Instant.latest.IsOrdinary := by decide
  have hlimited : briefest.expireAfter ≠ .zero := by decide
  have hanswer : briefest.expiryFrom lastChance = .ok (some .latest) :=
    (expiryFrom_eq_some_iff hchance).2 ⟨hlimited, hlatest, by decide⟩
  obtain ⟨-, -, hearlier, hexpired⟩ := expiry_is_exact briefest hchance
  obtain ⟨-, hout, -⟩ := expiry_is_exact briefest hlatest
  have hclock := hexpired (Record.fresh 1 "a" none [] lastChance (some .latest)) .latest hanswer rfl
  obtain ⟨hordinary, -⟩ := hclock .latest
  obtain ⟨-, hleap⟩ := hclock lastLeap
  refine ⟨hchance, hlatest, hlimited, by decide, hanswer, hearlier _ hanswer .epoch (.inl (by decide)),
    (hout hlimited).2 (by decide), ?_, hleap.2 (by decide)⟩
  rw [Bool.eq_false_iff, Ne, hordinary hlatest]
  decide

end AccessTokens.Policy
