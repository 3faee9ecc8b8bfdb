import AccessTokens.Proofs.Ability.Persistence
import Mathlib.Data.List.Forall2

/-!
# Kept lists as lists

A list of abilities is kept as one text, and two questions about it are answered here in terms of lists:
which list comes back, and what two lists grant when they are kept as one.

**Which list comes back.** `Ability.Cores` relates a list to the one without the blanks at the ends of its
elements, element by element; there is exactly one such list (`Ability.cores_iff`). A list of elements without
commas comes back as its cores without the empty ones (`Ability.list_join_of_free`), and when the elements
were accepted with a request there are no empty ones (`Ability.list_join_of_check`). What is read of any text
has no comma in it and no blank at its ends, and is not empty (`Ability.mem_list_shape`). So it is a list that
comes back as it is (`Ability.list_join_list`).

**What two lists grant.** An element that holds a comma is cut, but never across the seam to its neighbour
(`Ability.list_join`). So a list grants what its elements grant one by one, and only which elements there are
matters (`granting_is_union`).
-/

namespace AccessTokens

open Time (Instant)

/-! ### Trimmed texts -/

namespace Text.IsTrimmed

variable {text core : List Char}

/-- What is left of a text has nothing to be taken away at its ends. -/
theorem self (h : IsTrimmed text core) : IsTrimmed core core where
  around := ⟨[], [], by simp⟩
  first := h.first
  last := h.last

theorem subset (h : IsTrimmed text core) : core ⊆ text := by
  obtain ⟨before, after, rfl, -⟩ := h.around
  intro c hc
  exact List.mem_append_left _ (List.mem_append_right _ hc)

end Text.IsTrimmed

namespace Ability

/-! ### Reading back -/

/-- The abilities of one list are those of another one without the blanks at their ends. -/
def Cores : List String → List String → Prop :=
  List.Forall₂ fun ability core => Text.IsTrimmed ability.toList core.toList

variable {abilities : List String} {ability joined : String}

theorem cores_iff {cores : List String} : Cores abilities cores ↔ cores = abilities.map core := by
  unfold Cores
  simp only [isTrimmed_iff_core]
  -- the equation of the two lists is read element by element, too
  rw [eq_comm, ← List.forall₂_eq_eq_eq, List.forall₂_map_left_iff]
  exact ⟨List.Forall₂.imp fun _ _ => Eq.symm, List.Forall₂.imp fun _ _ => Eq.symm⟩

/-- Each element goes through as it would by itself, and is kept if something is left of it. An element with
a comma in it would come back as several. -/
theorem list_join_of_free (h : ∀ ability ∈ abilities, listSeparator ∉ ability.toList) :
    list (join abilities) = (abilities.map core).filter (· ≠ "") := by
  rw [list_join]
  -- the elements are read one after another, so the empty cores may be dropped one after another
  induction abilities with
  | nil => rfl
  | cons a as ih =>
    obtain ⟨ha, has⟩ := List.forall_mem_cons.1 h
    rw [List.flatMap_cons, list_of_free ha, ih has, ← List.filter_append]
    rfl

/-- What is read of any text is not empty, has no blank at its ends, and holds no comma. -/
theorem mem_list_shape (h : ability ∈ list joined) :
    ability ≠ "" ∧ Text.IsTrimmed ability.toList ability.toList ∧ listSeparator ∉ ability.toList := by
  obtain ⟨hne, parts, hcut, part, hpart, htrimmed⟩ := mem_list_iff.1 h
  refine ⟨hne, htrimmed.self, ?_⟩
  -- the part that the ability is the core of stands between commas
  intro hcomma
  exact hcut.free part hpart (htrimmed.subset hcomma)

theorem list_join_list (joined : String) : list (join (list joined)) = list joined := by
  have hcore : (list joined).map core = list joined := by
    rw [List.map_congr_left fun ability h => (isTrimmed_iff_core.1 (mem_list_shape h).2.1).symm,
      List.map_id']
  have hkept : (list joined).filter (· ≠ "") = list joined :=
    List.filter_eq_self.2 fun ability h => decide_eq_true (mem_list_shape h).1
  rw [list_join_of_free fun ability h => (mem_list_shape h).2.2, hcore, hkept]

/-- Of an accepted request every ability is read back, since none of them is blank. -/
theorem list_join_of_check {o : IssueOptions} (ho : o.check = .ok ()) :
    list (join o.abilities) = o.abilities.map core := by
  have heach : ∀ ability ∈ o.abilities, list ability = [core ability] := by
    intro ability hmem
    obtain ⟨hblank, hcomma⟩ := o.accepted_of_check ho hmem
    exact list_of_accepted hblank hcomma
  rw [list_join, List.flatMap_congr heach]
  exact List.flatMap_pure_eq_map core o.abilities

end Ability

open Ability (Cores)

/-- **Which abilities are read back**, of any record:

* when its list was joined of abilities without commas, they come back in their order and as often as they
  were given, without the blanks at their ends, and those of which nothing is left do not;
* when they were accepted with a request, all of them come back;
* whatever text its list is, what is read is not empty, has no blank at its ends and holds no comma, and
  when it is joined and kept instead of the text, it is read again. -/
theorem abilities_read_back (r : Record) :
    (∀ abilities : List String, r.abilities = Ability.join abilities →
      (∀ ability ∈ abilities, Ability.listSeparator ∉ ability.toList) →
      ∃ cores, Cores abilities cores ∧ r.abilityList = cores.filter (· ≠ "")) ∧
    (∀ o : IssueOptions, o.check = .ok () → r.abilities = Ability.join o.abilities →
      r.abilityList.length = o.abilities.length ∧ Cores o.abilities r.abilityList) ∧
    (∀ ability ∈ r.abilityList, ability ≠ "" ∧ Text.IsTrimmed ability.toList ability.toList ∧
      Ability.listSeparator ∉ ability.toList) ∧
    { r with abilities := Ability.join r.abilityList }.abilityList = r.abilityList := by
  refine ⟨?_, ?_, fun ability h => Ability.mem_list_shape h, Ability.list_join_list r.abilities⟩
  · intro abilities hjoined hfree
    refine ⟨abilities.map Ability.core, Ability.cores_iff.2 rfl, ?_⟩
    unfold Record.abilityList
    rw [hjoined, Ability.list_join_of_free hfree]
  · intro o ho hjoined
    have hlist : r.abilityList = o.abilities.map Ability.core := by
      unfold Record.abilityList
      rw [hjoined, Ability.list_join_of_check ho]
    rw [hlist]
    exact ⟨List.length_map _, Ability.cores_iff.2 rfl⟩

/-- The joined text of no ability and that of one empty ability are the same, and blanks of several kinds
stand around an ability that is requested twice. -/
theorem abilities_read_back_twice :
    let kept (abilities : List String) := Record.fresh 1 "d" none abilities .epoch none
    let o : IssueOptions := { userId := 1, abilities := ["\u3000read", "a b\t", "read"] }
    (∀ ability ∈ ["", " ", "b"], Ability.listSeparator ∉ ability.toList) ∧
      (∃ cores, Cores ["", " ", "b"] cores ∧ (kept ["", " ", "b"]).abilityList = cores.filter (· ≠ "")) ∧
      o.check = .ok () ∧ Cores o.abilities (kept o.abilities).abilityList ∧
      "b c" ∈ (kept [" b c,"]).abilityList ∧ Ability.listSeparator ∉ "b c".toList := by
  intro kept o
  have hfree : ∀ ability ∈ ["", " ", "b"], Ability.listSeparator ∉ ability.toList := by decide
  have ho : o.check = .ok () := by decide
  have hread : "b c" ∈ (kept [" b c,"]).abilityList := by decide
  exact ⟨hfree, (abilities_read_back (kept ["", " ", "b"])).1 _ rfl hfree, ho,
    ((abilities_read_back (kept o.abilities)).2.1 o ho rfl).2, hread,
    ((abilities_read_back (kept [" b c,"])).2.2.1 _ hread).2.2⟩

/-! ### Lists put together -/

/-- **Granting is a union over the list.** Of records that differ in their lists alone, the one with two
lists put together grants an ability exactly when the record with the first list or the one with the second
list does, whatever the elements are and whatever the delimiter.

So neither the order of the elements nor how often they stand in the list matters, and a record with more
elements grants no less. -/
theorem granting_is_union (userId : Int64) (digest : String) (name : Option String)
    (createdAt : Instant) (expiresAt : Option Instant) (required delimiter : String)
    (left right : List String) :
    let grants (abilities : List String) : Prop :=
      (Record.fresh userId digest name abilities createdAt expiresAt).hasAbility required delimiter = true
    (grants (left ++ right) ↔ grants left ∨ grants right) ∧
    ((∀ ability, ability ∈ left ↔ ability ∈ right) → (grants left ↔ grants right)) ∧
    (left ⊆ right → grants left → grants right) := by
  intro grants
  -- All three parts speak of membership only, once granting is said element by element.
  have hgrants (abilities : List String) : grants abilities ↔
      ∃ ability ∈ abilities, Ability.grants ability delimiter required = true := by
    show Ability.grants (Ability.join abilities) delimiter required = true ↔ _
    rw [Ability.grants_join, List.any_eq_true]
  have hmono {few many : List String} (h : few ⊆ many) : grants few → grants many := by
    rw [hgrants, hgrants]
    rintro ⟨ability, hmem, hgranted⟩
    exact ⟨ability, h hmem, hgranted⟩
  refine ⟨?_, ?_, hmono⟩
  · rw [hgrants, hgrants, hgrants]
    simp only [List.mem_append, or_and_right, exists_or]
  · intro hsame
    exact ⟨hmono fun ability h => (hsame ability).1 h, hmono fun ability h => (hsame ability).2 h⟩

/-- Commas at the seam and an empty list change nothing. -/
theorem granting_is_union_seams :
    let grants (abilities : List String) : Prop :=
      (Record.fresh 1 "d" none abilities .epoch none).hasAbility "read:posts" ":" = true
    (∀ ability, ability ∈ ["a,", ", read:*", ""] ↔ ability ∈ ["", ", read:*", "a,", ""]) ∧
      ["a,", ", read:*", ""] ⊆ ["", ", read:*", "a,", ""] ∧
      grants ["a,", ", read:*", ""] ∧ grants ["", ", read:*", "a,", ""] ∧
      ¬ grants (["rea"] ++ ["d:posts"]) := by
  intro grants
  have hsame : ∀ ability, ability ∈ ["a,", ", read:*", ""] ↔ ability ∈ ["", ", read:*", "a,", ""] := by
    intro ability
    simp only [List.mem_cons, List.not_mem_nil, or_false]
    grind
  have hmore : ["a,", ", read:*", ""] ⊆ ["", ", read:*", "a,", ""] := fun ability => (hsame ability).1
  have hfirst : grants ["a,", ", read:*", ""] := by decide
  have hneither : ¬ (grants ["rea"] ∨ grants ["d:posts"]) := by decide
  have hunion := granting_is_union 1 "d" none .epoch none "read:posts" ":"
  exact ⟨hsame, hmore, hfirst, (hunion _ _).2.2 hmore hfirst,
    fun hjoined => hneither ((hunion _ _).1.1 hjoined)⟩

end AccessTokens
