import AccessTokens.Proofs.Text.Cutting
import AccessTokens.Record

/-!
# What abilities cover

`Ability.covers` and `Ability.grants` are decisions on texts. Here is what they decide.

`Covers delimiter granted required` has one constructor for each way in which a granted ability covers a
required one: it is the wildcard, it is the required one, or it is a scope with the delimiter and the
wildcard behind it, where the required one has the delimiter behind that scope. The delimiter is any text,
also one that holds the wildcard, or one that overlaps with itself: a granted ability may then be read as
the wildcard of a scope in one way only, because the scope is what is left when the ending is taken away.
Nor does the delimiter have to be there at all. An empty one stands behind every scope, so that the wildcard
of a scope covers the scope too (`wildcard_covers_scope_of_empty_delimiter`), which no other delimiter does.

`Lists joined ability` says that an ability stands in a kept list, as a part of it between commas with the
blanks around it taken away. The two decide what a record grants (`Record.hasAbility_iff_listed_covers`).
-/

namespace AccessTokens

namespace Ability

/-- A granted ability covers a required one. -/
inductive Covers (delimiter : String) : String → String → Prop
  | everything (required : String) : Covers delimiter wildcard required
  | itself (ability : String) : Covers delimiter ability ability
  | below (scope rest : String) :
    Covers delimiter (scope ++ delimiter ++ wildcard) (scope ++ delimiter ++ rest)

/-- An ability stands in a kept list: it is not empty, and is a part of the list between commas, without
the blanks around it. -/
def Lists (joined ability : String) : Prop :=
  ability ≠ "" ∧ ∃ parts, Text.IsCut listSeparator joined.toList parts ∧
    ∃ part ∈ parts, Text.IsTrimmed part ability.toList

variable {delimiter granted required scope joined ability : String}

/-! ### Covering -/

/-- The scope of a granted ability is what is left without the delimiter and the wildcard behind it. -/
theorem before?_scoped_iff {cs : List Char} :
    Text.before? (delimiter ++ wildcard).toList granted.toList = some cs ↔
      granted = String.ofList cs ++ delimiter ++ wildcard := by
  rw [Text.before?_eq_some_iff, ← String.toList_inj]
  simp only [String.toList_append, String.toList_ofList, List.append_assoc]

theorem covers_iff : covers delimiter granted required = true ↔ Covers delimiter granted required := by
  unfold covers
  rw [Bool.or_eq_true, Bool.or_eq_true, beq_iff_eq, beq_iff_eq]
  -- the three tests of the program are the three constructors
  constructor
  · rintro ((rfl | rfl) | h)
    · exact .everything required
    · exact .itself granted
    · split at h
      · cases h
      · next scope hgranted =>
        obtain rfl := before?_scoped_iff.1 hgranted
        split at h
        · cases h
        · next tail hrequired =>
          -- behind the scope is the delimiter, and behind that anything
          obtain ⟨rest, rfl⟩ := List.isPrefixOf_iff_prefix.1 h
          have htext : required = String.ofList scope ++ delimiter ++ String.ofList rest := by
            rw [← String.toList_inj, Text.after?_eq_some_iff.1 hrequired]
            simp [List.append_assoc]
          rw [htext]
          exact .below _ _
  · intro h
    cases h with
    | everything => exact Or.inl (Or.inl rfl)
    | itself => exact Or.inl (Or.inr rfl)
    | below scope rest =>
      have hgranted : Text.before? (delimiter ++ wildcard).toList
          (scope ++ delimiter ++ wildcard).toList = some scope.toList :=
        before?_scoped_iff.2 (by rw [String.ofList_toList])
      have hrequired : Text.after? scope.toList (scope ++ delimiter ++ rest).toList =
          some (delimiter.toList ++ rest.toList) := by
        rw [Text.after?_eq_some_iff]
        simp [List.append_assoc]
      refine Or.inr ?_
      rw [hgranted]
      dsimp only
      rw [hrequired]
      exact List.isPrefixOf_iff_prefix.2 (List.prefix_append _ _)

/-- What the wildcard of a scope covers has the delimiter behind the scope. The converse is `Covers.below`.
The granted text may be the wildcard of another scope as well, but it has only one ending to take away. -/
theorem Covers.prefix_of_scoped (h : Covers delimiter (scope ++ delimiter ++ wildcard) required) :
    (scope ++ delimiter).toList <+: required.toList := by
  have hfront (stem rest : String) : stem.toList <+: (stem ++ rest).toList := by
    rw [String.toList_append]
    exact List.prefix_append _ _
  generalize hgranted : scope ++ delimiter ++ wildcard = granted at h
  cases h with
  | everything =>
    -- the wildcard alone leaves no room for a scope and a delimiter
    have hnone : (scope ++ delimiter).toList ++ wildcard.toList = wildcard.toList := by
      rw [← String.toList_append, hgranted]
    rw [List.append_left_eq_self.1 hnone]
    exact List.nil_prefix
  | itself =>
    rw [← hgranted]
    exact hfront _ _
  | below scope' rest =>
    -- one ending was taken away, so what is left is the same
    have hstem : (scope ++ delimiter).toList = (scope' ++ delimiter).toList := by
      have htext := congrArg String.toList hgranted
      rw [String.toList_append, String.toList_append (s := scope' ++ delimiter)] at htext
      exact List.append_cancel_right htext
    rw [hstem]
    exact hfront _ _

theorem not_prefix_scope (h : delimiter ≠ "") (scope : String) :
    ¬ (scope ++ delimiter).toList <+: scope.toList := by
  intro hstarts
  have hlength := hstarts.length_le
  have hpos : 0 < delimiter.toList.length := by
    rw [List.length_pos_iff]
    intro hnil
    exact h (String.toList_inj.1 hnil)
  rw [String.toList_append, List.length_append] at hlength
  omega

/-! ### Kept lists -/

theorem mem_list_iff : ability ∈ list joined ↔ Lists joined ability := by
  simp only [list, Lists, List.mem_map, List.mem_filter, Text.isCut_iff, Text.isTrimmed_iff]
  constructor
  · rintro ⟨_, ⟨⟨part, hpart, rfl⟩, hne⟩, rfl⟩
    refine ⟨?_, _, rfl, part, hpart, String.toList_ofList⟩
    intro hempty
    have hnil := congrArg String.toList hempty
    rw [String.toList_ofList] at hnil
    exact of_decide_eq_true hne hnil
  · rintro ⟨hne, _, rfl, part, hpart, hability⟩
    refine ⟨ability.toList, ⟨⟨part, hpart, hability.symm⟩, ?_⟩, String.ofList_toList⟩
    refine decide_eq_true fun hnil => hne ?_
    exact String.toList_inj.1 hnil

theorem grants_iff : grants joined delimiter required = true ↔
    ∃ granted, Lists joined granted ∧ Covers delimiter granted required := by
  simp only [grants, List.any_eq_true, mem_list_iff, covers_iff]

end Ability

open Ability (Lists Covers)

/-- **What a record grants.** A required ability is granted exactly when an ability that stands in the
record's list covers it, whatever text the list is and whatever the delimiter.

The wildcard of a scope has no part in granting an ability that begins with the scope but not with the
delimiter behind it: the abilities that stand beside it decide. Nor has it a part in granting the scope
itself, unless the delimiter is empty. -/
theorem Record.hasAbility_iff_listed_covers (r : Record) (required delimiter : String) :
    (r.hasAbility required delimiter = true ↔
      ∃ granted, Lists r.abilities granted ∧ Covers delimiter granted required) ∧
    ∀ scope : String,
      (required = scope ∧ delimiter ≠ "" ∨ ¬ (scope ++ delimiter).toList <+: required.toList) →
      (r.hasAbility required delimiter = true ↔
        ∃ granted, Lists r.abilities granted ∧ granted ≠ scope ++ delimiter ++ Ability.wildcard ∧
          Covers delimiter granted required) := by
  have hgrants : r.hasAbility required delimiter = true ↔
      ∃ granted, Lists r.abilities granted ∧ Covers delimiter granted required := Ability.grants_iff
  refine ⟨hgrants, ?_⟩
  intro scope houtside
  -- Both cases come to this: the required ability does not have the delimiter behind the scope. In the
  -- first one it is too short for that.
  have hstarts : ¬ (scope ++ delimiter).toList <+: required.toList := by
    rcases houtside with ⟨rfl, hd⟩ | h
    · exact Ability.not_prefix_scope hd required
    · exact h
  rw [hgrants]
  constructor
  · rintro ⟨granted, hlisted, hcovers⟩
    refine ⟨granted, hlisted, ?_, hcovers⟩
    rintro rfl
    exact hstarts hcovers.prefix_of_scoped
  · rintro ⟨granted, hlisted, -, hcovers⟩
    exact ⟨granted, hlisted, hcovers⟩

theorem hasAbility_iff_listed_covers_overlapping :
    let r : Record := { Record.fresh 1 "d" none [] .epoch none with abilities := "a**,,aab , *b" }
    ¬ ("a" ++ "*").toList <+: "aab".toList ∧
      ∃ granted, Lists r.abilities granted ∧ granted ≠ "a" ++ "*" ++ Ability.wildcard ∧
        Covers "*" granted "aab" := by
  intro r
  have hstarts : ¬ ("a" ++ "*").toList <+: "aab".toList := by decide
  have hgranted : r.hasAbility "aab" "*" = true := by decide
  exact ⟨hstarts, ((r.hasAbility_iff_listed_covers "aab" "*").2 "a" (.inr hstarts)).1 hgranted⟩

/-- Nothing stands in the list but the wildcard of the scope `a`, and with an empty delimiter it grants the
scope. -/
theorem wildcard_covers_scope_of_empty_delimiter :
    let r : Record := { Record.fresh 1 "d" none [] .epoch none with abilities := "a*" }
    (∀ granted, Lists r.abilities granted → granted = "a" ++ "" ++ Ability.wildcard) ∧
      r.hasAbility "a" "" = true := by
  intro r
  refine ⟨fun granted hlisted => ?_, by decide⟩
  have hlist : Ability.list r.abilities = ["a" ++ "" ++ Ability.wildcard] := by decide
  have hmem := Ability.mem_list_iff.2 hlisted
  rw [hlist] at hmem
  exact List.mem_singleton.1 hmem

end AccessTokens
