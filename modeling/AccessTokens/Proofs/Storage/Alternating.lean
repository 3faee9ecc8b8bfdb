import AccessTokens.Proofs.Storage.MemoryIndex
import Mathlib.Data.List.Count

/-!
# Storing and revoking in turn

A store in memory refuses a digest that it has and cannot revoke one that it does not have. So in every
history a digest is stored and revoked in turn, first stored, and it is there exactly when it has been
stored once more than revoked (`Memory.Alternates`). Between two changes that store a digest it is
revoked at most once (`Alternating.count_revoked_le`).
-/

namespace AccessTokens.Storage

open Time (Instant)

/-- A change that stores a record with some digest. -/
def Change.stores (d : String) : Change → Bool
  | .stored r => r.digest = d
  | _ => false

/-- At every time of a history a digest has been stored as often as it was revoked, or once more. In a run
it is once more while a record with it is kept. -/
def Alternating (d : String) (log : List Change) : Prop :=
  ∀ before after, log = before ++ after →
    before.count (.revoked d) ≤ before.countP (Change.stores d) ∧
      before.countP (Change.stores d) ≤ before.count (.revoked d) + 1

/-- It is enough to look at the whole of a longer history, since its parts were looked at before. A part of
the longer history is a part of the shorter one, or it is the whole. -/
theorem Alternating.concat {d : String} {log : List Change} {x : Change} (h : Alternating d log)
    (hx : (log ++ [x]).count (.revoked d) ≤ (log ++ [x]).countP (Change.stores d) ∧
      (log ++ [x]).countP (Change.stores d) ≤ (log ++ [x]).count (.revoked d) + 1) :
    Alternating d (log ++ [x]) := by
  intro before after heq
  -- the time is the end of the longer history, or is one of the shorter history
  rcases List.eq_nil_or_concat after with rfl | ⟨after, y, rfl⟩
  · rw [List.append_nil] at heq
    rwa [← heq]
  · rw [List.concat_eq_append, ← List.append_assoc] at heq
    exact h before after (List.append_inj' heq rfl).1

/-- A digest that is not stored meanwhile is revoked once at most: the number of revokes lags behind the
number of stores by one at most, before and after. -/
theorem Alternating.count_revoked_le {d : String} {before between after : List Change}
    (h : Alternating d (before ++ between ++ after))
    (hbetween : ∀ r, .stored r ∈ between → r.digest ≠ d) : between.count (.revoked d) ≤ 1 := by
  have hnone : between.countP (Change.stores d) = 0 := by
    rw [List.countP_eq_zero]
    intro x hx
    cases x with
    | stored r => simpa [Change.stores] using hbetween r hx
    | _ => simp [Change.stores]
  -- the balance at the two ends bounds what can be revoked between them
  have hstart := h before (between ++ after) (List.append_assoc _ _ _)
  have hend := h (before ++ between) after rfl
  rw [List.count_append, List.countP_append, hnone] at hend
  omega

namespace Memory

/-- In the history of a state every digest was stored and revoked in turn, and what is there was stored
once more than it was revoked. -/
structure Alternates (log : List Change) (m : Memory) : Prop where
  sound : m.Sound
  alternating : ∀ d, Alternating d log
  countP_eq : ∀ d, log.countP (Change.stores d) =
    log.count (.revoked d) + if m.byDigest.contains d then 1 else 0

theorem Alternates.empty : Alternates [] Memory.empty where
  sound := .empty
  alternating d before after h := by
    obtain ⟨rfl, -⟩ := List.nil_eq_append_iff.1 h
    simp
  countP_eq d := by simp [Memory.empty]

variable {m : Memory} {log : List Change}

/-- An allowed change of a digest that is there takes it away, and one of a digest that is not there
brings it. -/
theorem Alternates.countP_apply (h : m.Alternates log) {x : Change} (ha : m.Allows x) (d : String) :
    (log ++ [x]).countP (Change.stores d) =
      (log ++ [x]).count (.revoked d) + if (m.apply x).byDigest.contains d then 1 else 0 := by
  have hd := h.countP_eq d
  rw [Std.ExtTreeMap.contains_eq_isSome_getElem?] at hd ⊢
  rw [List.countP_append, List.count_append, hd]
  cases x with
  | stored r =>
    -- storing counts for the digest of the record, which was not there
    have hrevoked : [Change.stored r].count (.revoked d) = 0 := by simp
    rw [byDigest_stored, hrevoked]
    by_cases hr : r.digest = d
    · have hstored : [Change.stored r].countP (Change.stores d) = 1 := by simp [Change.stores, hr]
      rw [if_pos hr, hstored, ← hr, ha.1]
      rfl
    · have hstored : [Change.stored r].countP (Change.stores d) = 0 := by simp [Change.stores, hr]
      rw [if_neg hr, hstored, Nat.add_zero, Nat.add_zero]
  | revoked d' =>
    -- revoking counts for the revoked digest, which was there
    obtain ⟨id, hid⟩ := ha
    have hstored : [Change.revoked d'].countP (Change.stores d) = 0 := by simp [Change.stores]
    rw [byDigest_revoked d hid, hstored]
    by_cases hd' : d' = d
    · subst hd'
      have hrevoked : [Change.revoked d'].count (.revoked d') = 1 := by simp
      rw [if_pos rfl, hrevoked, hid]
      rfl
    · have hrevoked : [Change.revoked d'].count (.revoked d) = 0 := by simp [hd']
      rw [if_neg hd', hrevoked, Nat.add_zero, Nat.add_zero]
  | touched id now =>
    -- a touch is not counted, and leaves the index of digests
    have hnone : [Change.touched id now].countP (Change.stores d) = 0 ∧
        [Change.touched id now].count (.revoked d) = 0 := by simp [Change.stores]
    rw [byDigest_touched, hnone.1, hnone.2, Nat.add_zero, Nat.add_zero]

/-- An allowed change keeps the balance at every time of the history, the last one included. A digest is
stored only when it is free and revoked only when it is taken. A touch counts for neither. -/
theorem Alternates.apply (h : m.Alternates log) {x : Change} (ha : m.Allows x) :
    (m.apply x).Alternates (log ++ [x]) where
  sound := h.sound.apply ha
  alternating d := by
    have hd := h.countP_apply ha d
    refine (h.alternating d).concat ?_
    rw [hd]
    split <;> omega
  countP_eq := h.countP_apply ha

/-- **Every digest is stored and revoked in turn**, in every run. -/
theorem run_alternates (asked : List (Call × Instant)) :
    (driver.run asked empty).2.Alternates (driver.run asked empty).1 :=
  driver.run_induction (P := fun log m => m.Alternates log) .empty
    (fun _ _ c now h => h.sound.answer_of_apply (P := fun log m => m.Alternates log)
      (fun _ ha => h.apply ha) h c now) asked

end Memory

end AccessTokens.Storage
