import AccessTokens.Policy.Basic
import AccessTokens.Proofs.Ability.Covering
import AccessTokens.Service.Options

/-!
# Lists of abilities that are kept as one text

A list of abilities is joined by commas when a record is made of it, and is read back when an ability is
required. Reading goes through the joined text element by element (`Ability.list_join`): each element
comes back as what it would be read as by itself, and the seams between the elements leave no trace.

An element without a comma comes back as its core (`Ability.core`), which is the element without the blanks
at its ends, unless nothing is left of it (`Ability.list_of_free`). So an element that was accepted with a
request comes back as one ability (`Ability.list_of_accepted`), since it holds no comma and is not blank. But
nobody takes the blanks at its ends away when it is accepted. What a record grants are then the trimmed
abilities of the request (`accepted_abilities_are_trimmed`), and a request with blanks at the ends of an
ability may be granted more than it says, or less (`blanks_change_permissions`).
-/

namespace AccessTokens

open Time (Instant)

namespace Ability

/-- Reading a joined list reads its elements one after another. An element is cut where it holds commas of
its own, but no part reaches over the seam into the next element. -/
theorem list_join (abilities : List String) : list (join abilities) = abilities.flatMap list := by
  cases abilities with
  | nil =>
    -- the empty list is joined to the empty text, of which nothing is kept
    rfl
  | cons a as =>
    have htexts : (a :: as).map String.toList ≠ [] := by simp
    have hjoin : (join (a :: as)).toList = [listSeparator].intercalate ((a :: as).map String.toList) := by
      unfold join
      rw [String.toList_intercalate, String.toList_singleton]
    unfold list
    rw [hjoin, Text.pieces_intercalate_eq_flatMap htexts, List.flatMap_map, List.map_flatMap,
      List.filter_flatMap, List.map_flatMap]

/-- What is granted by a joined list is granted by one of its elements. -/
theorem grants_join (abilities : List String) (delimiter required : String) :
    grants (join abilities) delimiter required =
      abilities.any fun ability => grants ability delimiter required := by
  unfold grants
  rw [list_join, List.any_flatMap]

/-- An ability without the blanks at its ends. -/
def core (ability : String) : String := String.ofList (Text.trim ability.toList)

theorem isTrimmed_iff_core {ability granted : String} :
    Text.IsTrimmed ability.toList granted.toList ↔ granted = core ability := by
  rw [Text.isTrimmed_iff, ← String.toList_inj, core, String.toList_ofList]

/-- Whether a part is empty may as well be asked of the ability that it makes. -/
theorem list_eq (joined : String) : list joined =
    ((Text.pieces listSeparator joined.toList).map fun part => String.ofList (Text.trim part)).filter
      (· ≠ "") := by
  unfold list
  rw [List.filter_map, List.filter_map, List.map_map]
  simp only [Function.comp_def, ne_eq, String.ofList_eq_empty_iff]

/-- An ability that holds no comma is read back as its core, if there is one. -/
theorem list_of_free {ability : String} (h : listSeparator ∉ ability.toList) :
    list ability = [core ability].filter (· ≠ "") := by
  rw [list_eq, Text.pieces_of_not_mem h]
  rfl

/-- An ability that is not blank and holds no comma is read back as one, trimmed. -/
theorem list_of_accepted {ability : String} (hblank : Text.trim ability.toList ≠ [])
    (hcomma : listSeparator ∉ ability.toList) : list ability = [core ability] := by
  have hne : core ability ≠ "" := fun hempty => hblank (String.ofList_eq_empty_iff.1 hempty)
  rw [list_of_free hcomma]
  exact List.filter_eq_self.2 (List.forall_mem_singleton.2 (decide_eq_true hne))

theorem grants_of_accepted {ability : String} (hblank : Text.trim ability.toList ≠ [])
    (hcomma : listSeparator ∉ ability.toList) {delimiter required : String} :
    grants ability delimiter required = true ↔
      ∃ granted : String, Text.IsTrimmed ability.toList granted.toList ∧
        Covers delimiter granted required := by
  unfold grants
  rw [list_of_accepted hblank hcomma, List.any_cons, List.any_nil, Bool.or_false, covers_iff]
  constructor
  · intro hcovers
    exact ⟨core ability, isTrimmed_iff_core.2 rfl, hcovers⟩
  · rintro ⟨granted, hgranted, hcovers⟩
    rwa [← isTrimmed_iff_core.1 hgranted]

end Ability

/-- What was accepted has no blank ability in it, and none with a comma. Nothing else is asked of an
ability, so it may have blanks at its ends. -/
theorem IssueOptions.accepted_of_check {o : IssueOptions} (h : o.check = .ok ()) {ability : String}
    (hmem : ability ∈ o.abilities) :
    Text.trim ability.toList ≠ [] ∧ Ability.listSeparator ∉ ability.toList := by
  have heach : o.abilities.forM checkAbility = .ok () := by
    unfold check at h
    -- neither the owner nor the name was refused
    by_cases howner : o.userId ≤ 0
    · rw [if_pos howner] at h
      cases h
    · rw [if_neg howner] at h
      by_cases hname : (o.name.getD "").length > maxNameLength
      · rw [if_pos hname] at h
        cases h
      · rw [if_neg hname] at h
        exact h
  -- along the list: what stands behind an ability was looked at only when that one was accepted
  generalize o.abilities = abilities at heach hmem
  induction abilities with
  | nil => cases hmem
  | cons a as ih =>
    change (checkAbility a >>= fun _ => as.forM checkAbility) = .ok () at heach
    cases hfirst : checkAbility a with
    | error e =>
      rw [hfirst] at heach
      cases heach
    | ok _ =>
      rw [hfirst] at heach
      rcases List.mem_cons.1 hmem with rfl | hrest
      · -- neither of the two refusals of one ability applies
        unfold checkAbility at hfirst
        split at hfirst
        · cases hfirst
        · next hblank =>
          split at hfirst
          · cases hfirst
          · next hcomma => exact ⟨hblank, by simpa using hcomma⟩
      · exact ih heach hrest

open Ability (Covers)

/-- **What an accepted request is granted.** A record made of an accepted request grants a required ability
exactly when one of the requested abilities covers it after the blanks at its ends were taken away,
whatever the delimiter. Hence it grants each requested ability without those blanks, and when there are
none, it grants what the requested abilities cover as they stand, and nothing wider. -/
theorem accepted_abilities_are_trimmed {o : IssueOptions} (ho : o.check = .ok ()) (digest : String)
    (createdAt : Instant) (expiresAt : Option Instant) (delimiter : String) :
    let r := Record.fresh o.userId digest o.name o.abilities createdAt expiresAt
    (∀ required : String, r.hasAbility required delimiter = true ↔
      ∃ asked ∈ o.abilities, ∃ granted : String, Text.IsTrimmed asked.toList granted.toList ∧
        Covers delimiter granted required) ∧
    (∀ asked ∈ o.abilities, ∀ granted : String, Text.IsTrimmed asked.toList granted.toList →
      r.hasAbility granted delimiter = true) ∧
    ((∀ asked ∈ o.abilities, Text.IsTrimmed asked.toList asked.toList) →
      ∀ required : String, r.hasAbility required delimiter = true ↔
        ∃ asked ∈ o.abilities, Covers delimiter asked required) := by
  intro r
  have hgrants (required : String) : r.hasAbility required delimiter = true ↔
      ∃ asked ∈ o.abilities, ∃ granted : String, Text.IsTrimmed asked.toList granted.toList ∧
        Covers delimiter granted required := by
    show Ability.grants (Ability.join o.abilities) delimiter required = true ↔ _
    rw [Ability.grants_join, List.any_eq_true]
    refine exists_congr fun asked => and_congr_right fun hasked => ?_
    obtain ⟨hblank, hcomma⟩ := o.accepted_of_check ho hasked
    exact Ability.grants_of_accepted hblank hcomma
  refine ⟨hgrants, ?_, ?_⟩
  · intro asked hasked granted hgranted
    exact (hgrants granted).2 ⟨asked, hasked, granted, hgranted, .itself granted⟩
  · intro hplain required
    rw [hgrants]
    constructor
    · rintro ⟨asked, hasked, granted, hgranted, hcovers⟩
      -- there is one way to trim, and it leaves the ability as it stands
      have hsame : granted = asked := by
        rw [← String.toList_inj, hgranted.eq_trim, ← (hplain asked hasked).eq_trim]
      exact ⟨asked, hasked, hsame ▸ hcovers⟩
    · rintro ⟨asked, hasked, hcovers⟩
      exact ⟨asked, hasked, asked, hplain asked hasked, hcovers⟩

theorem accepted_abilities_are_trimmed_scoped :
    let o : IssueOptions := { userId := 1, abilities := ["write", " read::*"] }
    let r := Record.fresh o.userId "d" o.name o.abilities .epoch none
    o.check = .ok () ∧ r.hasAbility "read::posts" "::" = true ∧ r.hasAbility " read::*" "::" = false := by
  intro o r
  have ho : o.check = .ok () := by decide
  have hgrants := (accepted_abilities_are_trimmed ho "d" .epoch none "::").1
  have htrimmed : Text.IsTrimmed " read::*".toList "read::*".toList :=
    Text.isTrimmed_iff.2 (by decide)
  refine ⟨ho, ?_, ?_⟩
  · refine (hgrants "read::posts").2 ⟨" read::*", by decide, "read::*", htrimmed, ?_⟩
    exact .below "read" "posts"
  · decide

/-- Blanks around the wildcard are accepted with a request, and then everything is granted, though no
requested ability covers it. Blanks around another ability are accepted as well, and then the very ability
that was requested is not granted. -/
theorem blanks_change_permissions :
    let p : Policy := {}
    let wide : IssueOptions := { userId := 1, abilities := [" * "] }
    let lost : IssueOptions := { userId := 1, abilities := [" read "] }
    let recordOf (o : IssueOptions) := Record.fresh o.userId "d" o.name o.abilities .epoch none
    p.check .epoch = .ok () ∧ wide.check = .ok () ∧ lost.check = .ok () ∧
      (recordOf wide).hasAbility "delete:posts" p.abilityDelimiter = true ∧
      (¬ ∃ asked ∈ wide.abilities, Covers p.abilityDelimiter asked "delete:posts") ∧
      (recordOf lost).hasAbility " read " p.abilityDelimiter = false ∧
      ∃ asked ∈ lost.abilities, Covers p.abilityDelimiter asked " read " := by
  intro p wide lost recordOf
  have hwide : ¬ ∃ asked ∈ wide.abilities, Covers p.abilityDelimiter asked "delete:posts" := by
    rintro ⟨asked, hasked, hcovers⟩
    obtain rfl : asked = " * " := List.mem_singleton.1 hasked
    have hdecided := Ability.covers_iff.2 hcovers
    revert hdecided
    decide
  have hlost : ∃ asked ∈ lost.abilities, Covers p.abilityDelimiter asked " read " :=
    ⟨" read ", List.mem_singleton.2 rfl, .itself " read "⟩
  exact ⟨by decide, by decide, by decide, by decide, hwide, by decide, hlost⟩

end AccessTokens
