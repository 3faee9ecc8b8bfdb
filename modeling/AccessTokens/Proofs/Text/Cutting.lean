import AccessTokens.Text.Blank
import AccessTokens.Text.Pieces
import Mathlib.Data.List.TakeWhile

/-!
# What cutting and trimming come to

`Text.pieces` and `Text.trim` are functions. This file says what they compute without following how they
do it.

* A list of parts is a cut of a text (`IsCut`) when joining them by the separator gives the text and none
  of them holds the separator. There is exactly one such list, and it is `pieces` (`isCut_iff`).
* A text is the core of another one (`IsTrimmed`) when only blanks stand around it and no blank at its
  ends. There is exactly one such text, and it is `trim` (`isTrimmed_iff`).

Cutting goes along with putting texts together at a separator (`pieces_append_cons_append`), so that what
is joined from any texts, with separators in them or without, is cut into the pieces of each
(`pieces_intercalate_eq_flatMap`).
-/

namespace AccessTokens.Text

/-! ### Cutting -/

section Cutting

variable {α : Type} [DecidableEq α] {sep : α}

/-- The parts of a text between all occurrences of a separator. -/
structure IsCut (sep : α) (whole : List α) (parts : List (List α)) : Prop where
  joined : [sep].intercalate parts = whole
  nonempty : parts ≠ []
  free : ∀ part ∈ parts, sep ∉ part

theorem isCut_iff {whole : List α} {parts : List (List α)} :
    IsCut sep whole parts ↔ parts = pieces sep whole := by
  constructor
  · intro h
    rw [← h.joined, pieces_intercalate h.nonempty h.free]
  · rintro rfl
    exact {
      joined := intercalate_pieces sep whole
      nonempty := pieces_ne_nil sep whole
      free := fun _ hpart => not_mem_of_mem_pieces hpart }

theorem pieces_append_cons_append (xs ys : List α) :
    pieces sep (xs ++ sep :: ys) = pieces sep xs ++ pieces sep ys := by
  induction xs with
  | nil =>
    show pieces sep (sep :: ys) = [] :: pieces sep ys
    exact if_pos rfl
  | cons c xs ih =>
    rw [List.cons_append, pieces, pieces, ih]
    split
    · rfl
    · -- the character goes to the first piece, which is one of the left text
      cases hxs : pieces sep xs with
      | nil => exact absurd hxs (pieces_ne_nil sep xs)
      | cons p ps => rfl

theorem pieces_intercalate_eq_flatMap {texts : List (List α)} (hne : texts ≠ []) :
    pieces sep ([sep].intercalate texts) = texts.flatMap (pieces sep) := by
  -- the first text is cut by itself, since a separator stands behind it
  induction texts with
  | nil => exact absurd rfl hne
  | cons t ts ih =>
    cases ts with
    | nil =>
      rw [List.intercalate_singleton, List.flatMap_singleton]
    | cons u us =>
      have hjoin : [sep].intercalate (t :: u :: us) = t ++ sep :: [sep].intercalate (u :: us) := by
        simp [List.intercalate_cons_cons]
      rw [hjoin, pieces_append_cons_append, ih (List.cons_ne_nil u us),
        ← List.flatMap_cons]

end Cutting

/-! ### Trimming -/

/-- What is left of a text without the blanks at its ends. -/
structure IsTrimmed (text core : List Char) : Prop where
  around : ∃ before after, text = before ++ core ++ after ∧
    ∀ c ∈ before ++ after, isBlank c = true
  first : ∀ c, core.head? = some c → isBlank c = false
  last : ∀ c, core.getLast? = some c → isBlank c = false

theorem trimStart_append_of_blank {before : List Char} (h : ∀ c ∈ before, isBlank c = true)
    (rest : List Char) : trimStart (before ++ rest) = trimStart rest :=
  List.dropWhile_append_of_pos h

theorem trimEnd_append_of_blank {after : List Char} (h : ∀ c ∈ after, isBlank c = true)
    (rest : List Char) : trimEnd (rest ++ after) = trimEnd rest := by
  have hback : ∀ c ∈ after.reverse, isBlank c = true := fun c hc => h c (List.mem_reverse.1 hc)
  unfold trimEnd
  rw [List.reverse_append, List.dropWhile_append_of_pos hback]

theorem isTrimmed_trim (text : List Char) : IsTrimmed text (trim text) where
  around := by
    obtain ⟨before, hbefore, hb⟩ := exists_blanks_trimStart text
    obtain ⟨after, hafter, ha⟩ := exists_blanks_trimEnd (trimStart text)
    refine ⟨before, after, ?_, ?_⟩
    · rw [List.append_assoc]
      exact hbefore.trans (congrArg (before ++ ·) hafter)
    · intro c hc
      rcases List.mem_append.1 hc with hc | hc
      · exact hb c hc
      · exact ha c hc
  first _ := head_trim text
  last _ := getLast_trim text

/-- Between blanks, the text with no blank at its ends is what trimming leaves. Trimming takes all the
blanks before it and behind it, and stops at its first and at its last character. -/
theorem IsTrimmed.eq_trim {text core : List Char} (h : IsTrimmed text core) : core = trim text := by
  obtain ⟨before, after, rfl, hblank⟩ := h.around
  have hb : ∀ c ∈ before, isBlank c = true := fun c hc => hblank c (List.mem_append_left _ hc)
  have ha : ∀ c ∈ after, isBlank c = true := fun c hc => hblank c (List.mem_append_right _ hc)
  unfold trim
  rw [List.append_assoc, trimStart_append_of_blank hb]
  cases core with
  | nil =>
    -- nothing but blanks, and the start takes them all
    have hall : trimStart (after ++ []) = [] := trimStart_append_of_blank ha []
    rw [List.append_nil] at hall
    rw [List.nil_append, hall, trimEnd_nil]
  | cons c cs =>
    have hstart : trimStart (c :: cs ++ after) = c :: cs ++ after :=
      trimStart_eq_self fun d hd => h.first d hd
    rw [hstart, trimEnd_append_of_blank ha, trimEnd_eq_self h.last]

theorem isTrimmed_iff {text core : List Char} : IsTrimmed text core ↔ core = trim text := by
  constructor
  · exact IsTrimmed.eq_trim
  · rintro rfl
    exact isTrimmed_trim text

end AccessTokens.Text
