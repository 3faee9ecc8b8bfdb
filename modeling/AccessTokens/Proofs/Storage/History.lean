import AccessTokens.Storage.Driver
import Mathlib.Data.List.Induction

/-!
# Histories of stores

A store is asked one call after another, each at a reading of the clock (`Driver.run`). Only some of
the answered calls change what is stored, and each of those makes one `Change`: a record is stored, a
digest is revoked, or an id is touched. Finding changes nothing, and neither does a call that fails.
The changes of a run, oldest first, are its history.

A history says by itself what a store should hold. `KeptSince log r since` says that `log` stored `r`,
that `since` are the changes after that, and that none of them revoked the digest of `r`. The record
as it should be found then is `r.usedSince since`: the record as it was stored, used last at the
latest touch of its id.

Everything about runs goes through one induction, `Driver.run_induction`: what holds of the empty
history and the first state, and is kept by every answered call, holds of every run.
-/

namespace AccessTokens

open Time (Instant)

namespace Storage

variable {σ : Type}

/-! ### Changes -/

/-- What an answered call changed in a store. -/
inductive Change
  | stored (r : Record)
  | revoked (digest : String)
  | touched (id : Int64) (now : Instant)
  deriving DecidableEq

/-- The change that an answered call made, if it made one. The answer tells of it. Lookups make none, and
neither does a call that was refused. -/
def Change.ofAnswer? : (c : Call) → Instant → c.Answer → Option Change
  | .store _, _, .ok r => some (.stored r)
  | .revoke digest, _, .ok () => some (.revoked digest)
  | .touch id, now, .ok () => some (.touched id now)
  | _, _, _ => none

/-- Each kind of change is made by one kind of call. So from a change one can tell what was asked. -/
theorem Change.call_of_ofAnswer? {c : Call} {now : Instant} {a : c.Answer} {x : Change}
    (h : Change.ofAnswer? c now a = some x) :
    (∀ s, x = .stored s → ∃ r, c = .store r) ∧ (∀ digest, x = .revoked digest → c = .revoke digest) ∧
      ∀ id t, x = .touched id t → c = .touch id := by
  cases c <;> cases a <;> cases h <;> simp

/-! ### Runs -/

/-- Makes one more call: the history with the change of the call, and the state it leaves. -/
def Driver.step (d : Driver σ) (x : List Change × σ) (asked : Call × Instant) : List Change × σ :=
  let (a, s) := d.answer asked.1 asked.2 x.2
  (x.1 ++ (Change.ofAnswer? asked.1 asked.2 a).toList, s)

/-- Makes the calls of a list, one after another: the history, oldest change first, and the state that
is left. -/
def Driver.run (d : Driver σ) (asked : List (Call × Instant)) (s : σ) : List Change × σ :=
  asked.foldl d.step ([], s)

@[simp] theorem Driver.run_nil (d : Driver σ) (s : σ) : d.run [] s = ([], s) := rfl

/-- The last call of a run is made in the state that the calls before it left. Inductions along a run go
from its end, where the last answer is. -/
@[simp] theorem Driver.run_concat (d : Driver σ) (asked : List (Call × Instant)) (c : Call)
    (now : Instant) (s : σ) : d.run (asked ++ [(c, now)]) s =
      ((d.run asked s).1 ++
          (Change.ofAnswer? c now (d.answer c now (d.run asked s).2).1).toList,
        (d.answer c now (d.run asked s).2).2) := by
  rw [run, List.foldl_append]
  rfl

/-- More calls go on in the state that the first ones left, and add to their history. -/
theorem Driver.run_append (d : Driver σ) (asked more : List (Call × Instant)) (s : σ) :
    d.run (asked ++ more) s =
      ((d.run asked s).1 ++ (d.run more (d.run asked s).2).1, (d.run more (d.run asked s).2).2) := by
  induction more using List.reverseRecOn with
  | nil => rw [List.append_nil, run_nil, List.append_nil]
  | append_singleton more x ih =>
    obtain ⟨c, now⟩ := x
    rw [← List.append_assoc, run_concat, run_concat, ih, List.append_assoc]

/-- **The induction on runs.** What holds at the start and is kept by every answered call holds after
every run. -/
theorem Driver.run_induction (d : Driver σ) {P : List Change → σ → Prop} {s : σ} (start : P [] s)
    (step : ∀ log t c now, P log t →
      P (log ++ (Change.ofAnswer? c now (d.answer c now t).1).toList) (d.answer c now t).2)
    (asked : List (Call × Instant)) : P (d.run asked s).1 (d.run asked s).2 := by
  induction asked using List.reverseRecOn with
  | nil => exact start
  | append_singleton asked x ih =>
    obtain ⟨c, now⟩ := x
    rw [run_concat]
    exact step _ _ c now ih

/-! ### What a history keeps -/

/-- The history stored a record and has not revoked its digest since; `since` are the changes after
the record was stored. -/
def KeptSince (log : List Change) (r : Record) (since : List Change) : Prop :=
  (∃ before, log = before ++ .stored r :: since) ∧ .revoked r.digest ∉ since

theorem not_keptSince_nil (r : Record) (since : List Change) : ¬ KeptSince [] r since := by
  rintro ⟨⟨before, h⟩, -⟩
  -- an empty history has no place for the change that stored
  simp at h

/-- One more change keeps the records that were kept, except one that it revokes, and may be the
storing of one more. -/
theorem keptSince_concat_iff {log since : List Change} {x : Change} {r : Record} :
    KeptSince (log ++ [x]) r since ↔
      x = .stored r ∧ since = [] ∨
        ∃ s, since = s ++ [x] ∧ KeptSince log r s ∧ x ≠ .revoked r.digest := by
  constructor
  · rintro ⟨⟨before, h⟩, hr⟩
    rcases List.eq_nil_or_concat since with rfl | ⟨s, y, rfl⟩
    · -- the record was stored by the last change
      have := List.append_inj' h rfl
      simp only [List.cons.injEq, and_true] at this
      exact Or.inl ⟨this.2, rfl⟩
    · -- the record was stored before, and the last change is the last one since
      rw [List.concat_eq_append] at h hr ⊢
      rw [← List.cons_append, ← List.append_assoc] at h
      obtain ⟨hlog, hx⟩ := List.append_inj' h rfl
      obtain rfl : x = y := by simpa using hx
      simp only [List.mem_append, List.mem_singleton, not_or] at hr
      exact Or.inr ⟨s, rfl, ⟨⟨before, hlog⟩, hr.1⟩, fun hxr => hr.2 hxr.symm⟩
  · rintro (⟨rfl, rfl⟩ | ⟨s, rfl, ⟨⟨before, rfl⟩, hr⟩, hx⟩)
    · exact ⟨⟨log, rfl⟩, by simp⟩
    · refine ⟨⟨before, by simp⟩, ?_⟩
      rw [List.mem_append, List.mem_singleton, not_or]
      exact ⟨hr, Ne.symm hx⟩

/-- A record that is kept after an answered call was stored by it, or was kept before. A change adds one
record at most, and a touch or a revocation adds none. -/
theorem KeptSince.before {log since : List Change} {x? : Option Change} {r : Record}
    (h : KeptSince (log ++ x?.toList) r since) :
    x? = some (.stored r) ∨ ∃ s, KeptSince log r s := by
  cases x? with
  | none =>
    rw [Option.toList_none, List.append_nil] at h
    exact Or.inr ⟨since, h⟩
  | some x =>
    rcases keptSince_concat_iff.1 h with ⟨rfl, -⟩ | ⟨s, -, hk, -⟩
    · exact Or.inl rfl
    · exact Or.inr ⟨s, hk⟩

/-- A change that decides which records are kept. A touch does not: it changes a record in its place. -/
def Change.isLasting : Change → Bool
  | .stored _ | .revoked _ => true
  | .touched _ _ => false

/-- Touches aside, the same records are kept. A touch stands between the store of a record and now, but it
neither revokes it nor stores another one. -/
theorem keptSince_filter_iff {log since : List Change} {r : Record} :
    KeptSince (log.filter Change.isLasting) r since ↔
      ∃ s, KeptSince log r s ∧ s.filter Change.isLasting = since := by
  -- revoking is lasting, so the digest is revoked among all changes or among none
  have hrevoked (s : List Change) :
      .revoked r.digest ∈ s.filter Change.isLasting ↔ .revoked r.digest ∈ s := by
    rw [List.mem_filter]
    exact ⟨fun h => h.1, fun h => ⟨h, rfl⟩⟩
  constructor
  · rintro ⟨⟨before, h⟩, hr⟩
    -- what the shorter history stored stands somewhere among all changes, with touches around it
    obtain ⟨log₁, log₂, rfl, -, h₂⟩ := List.filter_eq_append_iff.1 h
    obtain ⟨skipped, s, rfl, -, -, rfl⟩ := List.filter_eq_cons_iff.1 h₂
    rw [hrevoked] at hr
    exact ⟨s, ⟨⟨log₁ ++ skipped, by simp⟩, hr⟩, rfl⟩
  · rintro ⟨s, ⟨⟨before, rfl⟩, hr⟩, rfl⟩
    rw [← hrevoked] at hr
    refine ⟨⟨before.filter Change.isLasting, ?_⟩, hr⟩
    rw [List.filter_append, List.filter_cons_of_pos (by rfl)]

/-- The clock at a change that touches an id. -/
def Change.touchOf? (id : Int64) : Change → Option Instant
  | .touched id' now => if id' = id then some now else none
  | _ => none

/-- The clock at the latest touch of an id. -/
def lastTouch? (id : Int64) (log : List Change) : Option Instant :=
  (log.filterMap (Change.touchOf? id)).getLast?

theorem lastTouch?_concat (id : Int64) (log : List Change) (x : Change) :
    lastTouch? id (log ++ [x]) = (x.touchOf? id).or (lastTouch? id log) := by
  rw [lastTouch?, List.filterMap_append, List.getLast?_append]
  -- the last touch is the new one, or the last of the old ones
  cases h : x.touchOf? id <;> simp [h, lastTouch?]

/-! ### The ids of a history -/

/-- The id under which a change stored a record. -/
def Change.storedId? : Change → Option Int64
  | .stored r => some r.id
  | _ => none

/-- The ids under which a history stored records, oldest first. -/
def storedIds (log : List Change) : List Int64 := log.filterMap Change.storedId?

theorem mem_storedIds_iff {log : List Change} {i : Int64} :
    i ∈ storedIds log ↔ ∃ r, .stored r ∈ log ∧ r.id = i := by
  rw [storedIds, List.mem_filterMap]
  constructor
  · rintro ⟨x, hx, hi⟩
    cases x with
    | stored r => exact ⟨r, hx, Option.some.inj hi⟩
    | revoked digest => cases hi
    | touched id now => cases hi
  · rintro ⟨r, hr, hi⟩
    exact ⟨.stored r, hr, congrArg some hi⟩

theorem storedIds_append (log : List Change) (x? : Option Change) :
    storedIds (log ++ x?.toList) = storedIds log ++ (x?.bind Change.storedId?).toList := by
  rw [storedIds, List.filterMap_append]
  cases x? with
  | none => rfl
  | some x => cases x <;> rfl

end Storage

/-- A stored record as it is after more changes: last used at the latest touch of its id, if there was
one. -/
def Record.usedSince (r : Record) (since : List Storage.Change) : Record :=
  { r with lastUsedAt := (Storage.lastTouch? r.id since).or r.lastUsedAt }

namespace Record

variable (r : Record) (since : List Storage.Change)

@[simp] theorem usedSince_nil : r.usedSince [] = r := rfl

@[simp] theorem digest_usedSince : (r.usedSince since).digest = r.digest := rfl

theorem usedSince_concat_of_touchOf? {x : Storage.Change} (h : x.touchOf? r.id = none) :
    r.usedSince (since ++ [x]) = r.usedSince since := by
  simp [usedSince, Storage.lastTouch?_concat, h]

theorem usedSince_concat_touched (now : Instant) :
    r.usedSince (since ++ [.touched r.id now]) = { r.usedSince since with lastUsedAt := some now } := by
  simp [usedSince, Storage.lastTouch?_concat, Storage.Change.touchOf?]

end Record

end AccessTokens
