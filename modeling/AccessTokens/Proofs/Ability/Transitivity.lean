import AccessTokens.Policy.Basic
import AccessTokens.Proofs.Ability.Covering
import Mathlib.Data.List.Basic

/-!
# Wildcards as required abilities

A required ability may itself be the wildcard of a scope, as when a token hands out a part of what it may
do. Whoever is granted that wildcard should be granted what it covers, so covering should be transitive.

Whether it is depends on the delimiter alone. A granted wildcard and a required one have the delimiter and
the wildcard behind their scopes, and the two scopes may end at different places, also within a delimiter
that overlaps with itself. The granted scope may reach beyond the required one only when the delimiter goes
over into itself when one more wildcard is put behind it, and then it consists of wildcards only
(`eq_of_cons_eq_append_singleton`). Every other delimiter makes covering transitive (`Covers.trans`). The
empty one does not, and neither does `*`, which a policy may have (`Covers.trans_iff`).
-/

namespace AccessTokens

namespace Ability

/-- A delimiter has nothing in it but wildcards. The empty one has not even these. -/
def OnlyWildcards (delimiter : String) : Prop := ∀ c ∈ delimiter.toList, c = '*'

variable {delimiter granted middle required scope rest : String}

theorem toList_wildcard : wildcard.toList = ['*'] := rfl

/-- A text that is the same with something put before it as with a character put behind it is made of this
character. -/
theorem eq_of_cons_eq_append_singleton {α : Type} {first last : α} {text : List α}
    (h : first :: text = text ++ [last]) : ∀ c ∈ text, c = last := by
  induction text generalizing first with
  | nil => exact List.forall_mem_nil _
  | cons second text ih =>
    -- one place further on there is the same equation, of the text without its first character
    have hnext : second :: text = text ++ [last] := (List.cons.inj h).2
    intro c hc
    rw [hnext, List.mem_append, List.mem_singleton] at hc
    rcases hc with hc | hc
    · exact ih hnext c hc
    · exact hc

/-- Where a granted scope with its delimiter begins a required wildcard, it begins that wildcard's own scope
with its delimiter. -/
theorem prefix_of_append_eq (hd : ¬ OnlyWildcards delimiter) {wide narrow tail : List Char}
    (h : wide ++ delimiter.toList ++ tail = narrow ++ delimiter.toList ++ ['*']) :
    wide ++ delimiter.toList <+: narrow ++ delimiter.toList := by
  rcases List.append_eq_append_iff.1 h with ⟨between, hnarrow, -⟩ | ⟨beyond, hwide, hlast⟩
  · exact ⟨between, hnarrow.symm⟩
  · rcases List.append_eq_singleton_iff.1 hlast.symm with ⟨rfl, -⟩ | ⟨rfl, -⟩
    · have hsame : wide ++ delimiter.toList = narrow ++ delimiter.toList :=
        hwide.trans (List.append_nil _)
      exact hsame ▸ List.prefix_rfl
    · -- the granted scope reaches one place beyond the required one
      exfalso
      rw [List.append_assoc] at hwide
      obtain ⟨extra, hextra⟩ : ∃ extra, extra ++ delimiter.toList = delimiter.toList ++ ['*'] := by
        rcases List.append_eq_append_iff.1 hwide with ⟨cut, -, hcut⟩ | ⟨extra, -, hextra⟩
        · -- it is no shorter, for then the delimiter would be longer than itself
          have hlength := congrArg List.length hcut
          simp only [List.length_append, List.length_singleton] at hlength
          omega
        · exact ⟨extra, hextra.symm⟩
      have hlength := congrArg List.length hextra
      rw [List.length_append, List.length_append, Nat.add_comm, Nat.add_left_cancel_iff,
        List.length_singleton] at hlength
      obtain ⟨first, rfl⟩ := List.length_eq_one_iff.1 hlength
      exact hd (eq_of_cons_eq_append_singleton hextra)

/-- Nothing but the wildcard covers the wildcard. The wildcard of a scope covers only what has the delimiter
in it, and the delimiter is not made of wildcards. -/
theorem Covers.eq_wildcard (hd : ¬ OnlyWildcards delimiter) (h : Covers delimiter granted wildcard) :
    granted = wildcard := by
  generalize hwildcard : wildcard = required at h
  cases h with
  | everything => exact hwildcard
  | itself => rfl
  | below scope rest =>
    -- the delimiter would stand within the wildcard
    refine absurd (fun c hc => ?_) hd
    have hmem : c ∈ wildcard.toList := by
      rw [hwildcard, String.toList_append, String.toList_append]
      exact List.mem_append_left _ (List.mem_append_right _ hc)
    exact List.mem_singleton.1 hmem

/-- What covers the wildcard of a scope covers everything below that scope. When it is the wildcard of another
scope, this scope with its delimiter begins the required scope with its delimiter. -/
theorem Covers.below_of_scoped (hd : ¬ OnlyWildcards delimiter)
    (h : Covers delimiter granted (scope ++ delimiter ++ wildcard)) (rest : String) :
    Covers delimiter granted (scope ++ delimiter ++ rest) := by
  generalize hmiddle : scope ++ delimiter ++ wildcard = middle at h
  cases h with
  | everything => exact .everything _
  | itself =>
    rw [← hmiddle]
    exact .below scope rest
  | below wide tail =>
    have htext := congrArg String.toList hmiddle
    simp only [String.toList_append, toList_wildcard] at htext
    obtain ⟨between, hbetween⟩ := prefix_of_append_eq hd htext.symm
    -- behind the wider scope and its delimiter there is what divides the scopes, and then the rest
    have hrequired : scope ++ delimiter ++ rest =
        wide ++ delimiter ++ (String.ofList between ++ rest) := by
      rw [← String.toList_inj]
      simp only [String.toList_append, String.toList_ofList, ← hbetween, List.append_assoc]
    rw [hrequired]
    exact .below wide _

theorem Covers.trans (hd : ¬ OnlyWildcards delimiter) (hgranted : Covers delimiter granted middle)
    (hmiddle : Covers delimiter middle required) : Covers delimiter granted required := by
  cases hmiddle with
  | everything =>
    rw [hgranted.eq_wildcard hd]
    exact .everything required
  | itself => exact hgranted
  | below scope rest => exact hgranted.below_of_scoped hd rest

/-- With wildcards for a delimiter, the wildcard of the scope `*` covers the wildcard of the empty scope, but
not all that this one covers. -/
theorem not_covers_of_onlyWildcards (hd : OnlyWildcards delimiter) :
    Covers delimiter (wildcard ++ delimiter ++ wildcard) ("" ++ delimiter ++ wildcard) ∧
    ¬ Covers delimiter (wildcard ++ delimiter ++ wildcard) ("" ++ delimiter ++ "a") := by
  constructor
  · have hrow : delimiter.toList = List.replicate delimiter.toList.length '*' :=
      List.eq_replicate_iff.2 ⟨rfl, hd⟩
    have hshift : "" ++ delimiter ++ wildcard = wildcard ++ delimiter ++ "" := by
      rw [← String.toList_inj]
      simp only [String.toList_append, toList_wildcard, String.toList_empty, List.nil_append,
        List.append_nil, List.singleton_append]
      rw [hrow, ← List.replicate_succ, ← List.replicate_succ']
    rw [hshift]
    exact .below wildcard ""
  · intro hcovers
    -- scope and delimiter would fill the required ability, which ends in something else
    have hstarts : '*' :: delimiter.toList <+: delimiter.toList ++ ['a'] := by
      have hprefix := hcovers.prefix_of_scoped
      rwa [String.toList_append, String.toList_append, String.toList_append, String.toList_empty,
        List.nil_append] at hprefix
    have hsame : '*' :: delimiter.toList = delimiter.toList ++ ['a'] :=
      hstarts.eq_of_length (by rw [List.length_cons, List.length_append, List.length_singleton])
    have hmem : 'a' ∈ '*' :: delimiter.toList := by
      rw [hsame]
      exact List.mem_append_right _ (List.mem_singleton_self _)
    rcases List.mem_cons.1 hmem with hfirst | hother
    · exact absurd hfirst (by decide)
    · exact absurd (hd 'a' hother) (by decide)

/-- Covering is transitive with every delimiter that has something else in it than wildcards, and with no
other one. -/
theorem Covers.trans_iff : (∀ granted middle required, Covers delimiter granted middle →
    Covers delimiter middle required → Covers delimiter granted required) ↔
      ¬ OnlyWildcards delimiter := by
  constructor
  · intro htrans hd
    obtain ⟨hgranted, hnot⟩ := not_covers_of_onlyWildcards hd
    exact hnot (htrans _ _ _ hgranted (.below "" "a"))
  · intro hd granted middle required
    exact Covers.trans hd

end Ability

/-- **Wildcards are transitive.** Let the delimiter be neither empty nor end in the wildcard. A record that
grants the wildcard of a scope then grants every ability below that scope, whatever its list is and
wherever in the scope or the delimiter the scopes in the list end. -/
theorem Record.wildcards_are_transitive (r : Record) {delimiter : String} (hne : delimiter ≠ "")
    (hend : ¬ Ability.wildcard.toList <:+ delimiter.toList) (scope rest : String)
    (h : r.hasAbility (scope ++ delimiter ++ Ability.wildcard) delimiter = true) :
    r.hasAbility (scope ++ delimiter ++ rest) delimiter = true := by
  have hd : ¬ Ability.OnlyWildcards delimiter := by
    intro hall
    -- the last character would be a wildcard
    obtain ⟨front, last, htext⟩ := (List.eq_nil_or_concat' delimiter.toList).resolve_left
      fun hnil => hne (String.toList_inj.1 hnil)
    refine hend ⟨front, ?_⟩
    rw [htext, hall last (htext ▸ List.mem_append_right _ (List.mem_singleton_self _))]
    rfl
  obtain ⟨granted, hlisted, hcovers⟩ := Ability.grants_iff.1 h
  exact Ability.grants_iff.2 ⟨granted, hlisted, hcovers.below_of_scoped hd rest⟩

/-- The delimiter overlaps with itself, and the scope in the list ends where the required scope and its
delimiter have three colons. -/
theorem wildcards_are_transitive_overlapping :
    let r : Record := { Record.fresh 1 "d" none [] .epoch none with abilities := "write, a::* " }
    "::" ≠ "" ∧ ¬ Ability.wildcard.toList <:+ "::".toList ∧
      r.hasAbility ("a:" ++ "::" ++ Ability.wildcard) "::" = true ∧
      r.hasAbility ("a:" ++ "::" ++ "b::c") "::" = true := by
  intro r
  have hne : "::" ≠ "" := by decide
  have hend : ¬ Ability.wildcard.toList <:+ "::".toList := by decide
  have h : r.hasAbility ("a:" ++ "::" ++ Ability.wildcard) "::" = true := by decide
  exact ⟨hne, hend, h, r.wildcards_are_transitive hne hend "a:" "b::c" h⟩

/-- A policy may have the wildcard for a delimiter, and then this fails. -/
example :
    let p : Policy := { abilityDelimiter := "*" }
    let r := Record.fresh 1 "d" none ["***"] .epoch none
    p.check .epoch = .ok () ∧ r.hasAbility "**" p.abilityDelimiter = true ∧
      r.hasAbility "*a" p.abilityDelimiter = false := by
  decide

end AccessTokens
