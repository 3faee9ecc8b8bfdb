import AccessTokens.Text.UpperCase
import Mathlib.Data.List.Basic

/-!
# Back from an upper case

Upper cases are of one character or of several, and several characters may have the same one, so the texts
with a given upper case are found by going back from it, character by character. What goes back from one
character is `origins`: the characters whose upper case begins with it, each with what is left of its upper
case. It misses none (`exists_mem_origins`), so a text with a given upper case begins with an origin of its
first character, and the text behind that accounts for what is left (`exists_origin`).

Mostly nothing is left. Then the text goes back one character at a time, either because no longer upper case
fits (`exists_lone_origin`) or because there is no other origin at all (`eq_of_upperCaseText`).
-/

namespace AccessTokens.Text

/-- Tells whether the upper case of a character in a run may begin with a code point. -/
def UpperCaseRun.reaches (run : UpperCaseRun) (n : Nat) : Bool :=
  run.upper ≤ n && n ≤ run.upper + (run.last - run.first)

/-- The characters whose upper case may begin with a character, each with the rest of its upper case. -/
def origins (u : Char) : List (Char × List Char) :=
  (u, []) :: (upperCaseRuns.filter (·.reaches u.toNat)).map fun run =>
    (Char.ofNat (run.first + (u.toNat - run.upper)), run.rest.map Char.ofNat)

variable {c u : Char} {cs us : List Char} {run : UpperCaseRun}

theorem UpperCaseRun.bounds_of_has {n : Nat} (h : run.has n = true) : run.first ≤ n ∧ n ≤ run.last := by
  rw [has, Bool.and_eq_true, Bool.and_eq_true, decide_eq_true_eq, decide_eq_true_eq] at h
  exact h.1

/-- The upper cases of a run are characters: none of them is in the range of the surrogates or beyond the
last code point. -/
theorem isValidChar_of_mem (h : run ∈ upperCaseRuns) : run.upper + (run.last - run.first) < 0xD800 ∨
    0xDFFF < run.upper ∧ run.upper + (run.last - run.first) < 0x110000 := by
  revert run
  decide +kernel

/-- The upper case of a character in a run has the same place in its own run. No code point is skipped in a
run, since no run reaches into the surrogates. -/
theorem toNat_upper (hrun : run ∈ upperCaseRuns) {n : Nat} (hn : run.has n = true) :
    (Char.ofNat (run.upper + (n - run.first))).toNat = run.upper + (n - run.first) := by
  obtain ⟨hfirst, hlast⟩ := UpperCaseRun.bounds_of_has hn
  have hvalid : (run.upper + (n - run.first)).isValidChar := by
    have hrange := isValidChar_of_mem hrun
    unfold Nat.isValidChar
    omega
  rw [Char.ofNat, dif_pos hvalid]
  rfl

/-- Every character is an origin of what its upper case begins with. It is in a run that says so, or it is
its own upper case and listed for that. -/
theorem exists_mem_origins (c : Char) : ∃ u us, upperCase c = u :: us ∧ (c, us) ∈ origins u := by
  cases hfind : upperCaseRuns.find? (·.has c.toNat) with
  | none =>
    -- a character outside of all runs is its own upper case
    refine ⟨c, [], ?_, List.mem_cons_self⟩
    rw [upperCase, hfind]
  | some run =>
    have hrun : run ∈ upperCaseRuns := List.mem_of_find?_eq_some hfind
    have hhas : run.has c.toNat = true := List.find?_some (p := (UpperCaseRun.has · c.toNat)) hfind
    have hupper := toNat_upper hrun hhas
    obtain ⟨hfirst, hlast⟩ := UpperCaseRun.bounds_of_has hhas
    refine ⟨Char.ofNat (run.upper + (c.toNat - run.first)), run.rest.map Char.ofNat, ?_,
      List.mem_cons_of_mem _ (List.mem_map.2 ⟨run, List.mem_filter.2 ⟨hrun, ?_⟩, ?_⟩)⟩
    · rw [upperCase, hfind]
      rfl
    · rw [hupper, UpperCaseRun.reaches, Bool.and_eq_true, decide_eq_true_eq, decide_eq_true_eq]
      omega
    · have hplace : run.first + (run.upper + (c.toNat - run.first) - run.upper) = c.toNat := by omega
      rw [hupper, hplace, Char.ofNat_toNat]

/-- A text begins with an origin of what its upper case begins with. What is left of the upper case of that
character comes before the upper case of the rest of the text. -/
theorem exists_origin (h : upperCaseText cs = u :: us) :
    ∃ c rest cs', (c, rest) ∈ origins u ∧ cs = c :: cs' ∧ rest ++ upperCaseText cs' = us := by
  cases cs with
  | nil => cases h
  | cons c cs =>
    obtain ⟨u', rest, hupper, hmem⟩ := exists_mem_origins c
    change upperCase c ++ upperCaseText cs = u :: us at h
    rw [hupper, List.cons_append] at h
    obtain ⟨rfl, hrest⟩ := List.cons.inj h
    exact ⟨c, rest, cs, hmem, rfl, hrest⟩

theorem eq_nil_of_upperCaseText (h : upperCaseText cs = []) : cs = [] := by
  cases cs with
  | nil => rfl
  | cons c cs =>
    obtain ⟨u, rest, hupper, -⟩ := exists_mem_origins c
    change upperCase c ++ upperCaseText cs = [] at h
    rw [hupper] at h
    cases h

/-- Characters that have no other origin than themselves come from themselves. This is so for the digits,
which end the names that are looked for. -/
theorem eq_of_upperCaseText (hus : ∀ u ∈ us, origins u = [(u, [])]) (h : upperCaseText cs = us) :
    cs = us := by
  -- along the upper case: the first character is its own origin with nothing left over, so the rest is the
  -- upper case of the rest
  induction us generalizing cs with
  | nil => exact eq_nil_of_upperCaseText h
  | cons u us ih =>
    rw [List.forall_mem_cons] at hus
    obtain ⟨c, rest, cs', hmem, rfl, hrest⟩ := exists_origin h
    rw [hus.1] at hmem
    obtain ⟨rfl, rfl⟩ := Prod.mk.inj (List.mem_singleton.1 hmem)
    rw [ih hus.2 hrest]

/-- Where no longer upper case goes on with the second character, the first character stands alone. Then the
rest of the text has the rest of the upper case, and one can go on from there. -/
theorem exists_lone_origin {next : Char} (h : upperCaseText cs = u :: next :: us)
    (hlonger : ∀ origin ∈ origins u, origin.2.head? ≠ some next) :
    ∃ c cs', (c, []) ∈ origins u ∧ cs = c :: cs' ∧ upperCaseText cs' = next :: us := by
  obtain ⟨c, rest, cs', hmem, rfl, hrest⟩ := exists_origin h
  -- what is left of an origin is what the upper case goes on with
  cases rest with
  | nil => exact ⟨c, cs', hmem, rfl, hrest⟩
  | cons r rest =>
    obtain ⟨rfl, -⟩ := List.cons.inj hrest
    exact absurd rfl (hlonger _ hmem)

end AccessTokens.Text
