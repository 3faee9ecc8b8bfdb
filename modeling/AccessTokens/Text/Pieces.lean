/-!
# Texts cut at a separator

`pieces sep` cuts a text at every occurrence of one separator: a text with `n` separators has `n + 1`
pieces, some of which may be empty, and the empty text has one empty piece. Joining is
`List.intercalate [sep]`. A text is a list here, of characters or of bytes.

Main statements: joining the pieces gives the text back (`intercalate_pieces`), no piece contains the
separator (`not_mem_of_mem_pieces`), and a list of texts free of the separator is what its joined form
is cut into (`pieces_intercalate`). Together they say that cutting and joining are inverse.
-/

namespace AccessTokens.Text

variable {α : Type} [DecidableEq α]

/-- The pieces of a text between the occurrences of a separator. -/
def pieces (sep : α) : List α → List (List α)
  | [] => [[]]
  | c :: cs => if c = sep then [] :: pieces sep cs else (pieces sep cs).modifyHead (c :: ·)

/-- There is always a first piece. -/
theorem pieces_ne_nil (sep : α) (cs : List α) : pieces sep cs ≠ [] := by
  induction cs with
  | nil => simp [pieces]
  | cons c cs ih =>
    rw [pieces]
    split
    · simp
    · cases h : pieces sep cs with
      | nil => exact absurd h ih
      | cons p ps => simp

/-- A text with `n` separators has `n + 1` pieces. -/
theorem length_pieces (sep : α) (cs : List α) :
    (pieces sep cs).length = cs.count sep + 1 := by
  induction cs with
  | nil => rfl
  | cons c cs ih =>
    rw [pieces]
    split
    · subst_vars; simp [ih]
    · rename_i h; simp [ih, h]

/-- No piece contains the separator. -/
theorem not_mem_of_mem_pieces {sep : α} {cs p : List α} (h : p ∈ pieces sep cs) :
    sep ∉ p := by
  induction cs generalizing p with
  | nil => simp [pieces] at h; simp [h]
  | cons c cs ih =>
    rw [pieces] at h
    split at h
    · rcases List.mem_cons.1 h with rfl | h
      · simp
      · exact ih h
    · rename_i hc
      cases hp : pieces sep cs with
      | nil => exact absurd hp (pieces_ne_nil sep cs)
      | cons q qs =>
        rw [hp] at h ih
        simp only [List.modifyHead_cons, List.mem_cons] at h
        rcases h with rfl | h
        · have := ih (p := q) (by simp)
          simp [this, Ne.symm hc]
        · exact ih (by simp [h])

/-- A text without the separator is its only piece. -/
theorem pieces_of_not_mem {sep : α} {cs : List α} (h : sep ∉ cs) : pieces sep cs = [cs] := by
  induction cs with
  | nil => rfl
  | cons c cs ih =>
    simp only [List.mem_cons, not_or] at h
    rw [pieces, if_neg (Ne.symm h.1), ih h.2]
    rfl

/-- The first piece ends where the first separator stands. -/
theorem pieces_append_cons {sep : α} {p : List α} (h : sep ∉ p) (cs : List α) :
    pieces sep (p ++ sep :: cs) = p :: pieces sep cs := by
  induction p with
  | nil => simp [pieces]
  | cons c p ih =>
    simp only [List.mem_cons, not_or] at h
    rw [List.cons_append, pieces, if_neg (Ne.symm h.1), ih h.2]
    rfl

/-- Joining the pieces gives the text back. -/
theorem intercalate_pieces (sep : α) (cs : List α) :
    [sep].intercalate (pieces sep cs) = cs := by
  induction cs with
  | nil => rfl
  | cons c cs ih =>
    rw [pieces]
    cases hp : pieces sep cs with
    | nil => exact absurd hp (pieces_ne_nil sep cs)
    | cons p ps =>
      rw [hp] at ih
      split
      · rename_i h
        subst h
        rw [← ih]
        simp [List.intercalate, List.intersperse]
      · rw [List.modifyHead_cons, ← ih]
        cases ps <;> simp [List.intercalate, List.intersperse]

/-- A non-empty list of texts free of the separator is what its joined form is cut into. -/
theorem pieces_intercalate {sep : α} {ps : List (List α)} (hne : ps ≠ [])
    (h : ∀ p ∈ ps, sep ∉ p) : pieces sep ([sep].intercalate ps) = ps := by
  induction ps with
  | nil => exact absurd rfl hne
  | cons p ps ih =>
    cases ps with
    | nil => simpa [List.intercalate, List.intersperse] using pieces_of_not_mem (h p (by simp))
    | cons q qs =>
      have hq := ih (by simp) (fun r hr => h r (List.mem_cons_of_mem _ hr))
      have hj : [sep].intercalate (p :: q :: qs) = p ++ sep :: [sep].intercalate (q :: qs) := by
        simp [List.intercalate, List.intersperse]
      rw [hj, pieces_append_cons (h p (by simp)), hq]

/-! ### The first occurrence -/

/-- What stands before the first occurrence of a separator, or the whole text. -/
def upTo (sep : α) (cs : List α) : List α := cs.takeWhile (· ≠ sep)

/-- What stands after the first occurrence of a separator, or nothing. -/
def beyond (sep : α) (cs : List α) : List α := (cs.dropWhile (· ≠ sep)).drop 1

end AccessTokens.Text
