/-!
# Blank characters and trimming

A character is *blank* when it has the Unicode property White_Space. The property holds of twenty-five
characters, which fall into ten ranges of code points (`blankRanges`).

Texts are handled as lists of characters here. `trimStart` drops the blanks a text begins with and
`trim` those at both ends; blanks inside a text stay. What is taken away are blanks
(`exists_blanks_trimStart`, `exists_blanks_trimEnd`), and what is left has no blank at either end
(`head_trim`, `getLast_trim`).
-/

namespace AccessTokens.Text

/-- The ranges of code points that have the property White_Space, both ends included. -/
def blankRanges : List (Nat × Nat) :=
  [(0x09, 0x0D), (0x20, 0x20), (0x85, 0x85), (0xA0, 0xA0), (0x1680, 0x1680), (0x2000, 0x200A),
    (0x2028, 0x2029), (0x202F, 0x202F), (0x205F, 0x205F), (0x3000, 0x3000)]

/-- A blank character is one with the property White_Space. -/
def isBlank (c : Char) : Bool :=
  blankRanges.any fun range => range.1 ≤ c.toNat && c.toNat ≤ range.2

/-- Drops the blanks a text begins with. -/
def trimStart (cs : List Char) : List Char := cs.dropWhile isBlank

/-- Drops the blanks a text ends with. -/
def trimEnd (cs : List Char) : List Char := (cs.reverse.dropWhile isBlank).reverse

/-- Drops the blanks at both ends of a text. -/
def trim (cs : List Char) : List Char := trimEnd (trimStart cs)

@[simp] theorem trimEnd_nil : trimEnd [] = [] := rfl

/-- What is left by `trimStart` does not begin with a blank. -/
theorem head_trimStart (cs : List Char) {c : Char} (h : (trimStart cs).head? = some c) :
    isBlank c = false := by
  have := List.head?_dropWhile_not isBlank cs
  simp only [trimStart] at h
  rw [h] at this
  simpa using this

/-- A text that does not begin with a blank is not changed at its start. -/
theorem trimStart_eq_self {cs : List Char} (h : ∀ c, cs.head? = some c → isBlank c = false) :
    trimStart cs = cs := by
  cases cs with
  | nil => rfl
  | cons c cs => simp [trimStart, h c rfl]

/-- A text that does not end with a blank is not changed at its end. -/
theorem trimEnd_eq_self {cs : List Char} (h : ∀ c, cs.getLast? = some c → isBlank c = false) :
    trimEnd cs = cs := by
  have : trimStart cs.reverse = cs.reverse := trimStart_eq_self (by simpa using h)
  rw [trimEnd, ← trimStart, this, List.reverse_reverse]

/-- What is left by `trimEnd` does not end with a blank. -/
theorem getLast_trimEnd (cs : List Char) {c : Char} (h : (trimEnd cs).getLast? = some c) :
    isBlank c = false :=
  head_trimStart cs.reverse (by simpa [trimEnd, trimStart] using h)

/-- What is taken away at the start are blanks. -/
theorem exists_blanks_trimStart (text : List Char) :
    ∃ before, text = before ++ trimStart text ∧ ∀ c ∈ before, isBlank c = true :=
  ⟨text.takeWhile isBlank, List.takeWhile_append_dropWhile.symm,
    List.all_eq_true.1 List.all_takeWhile⟩

/-- What is taken away at the end are blanks. It is what is taken away at the start of the text when that is
read backwards. -/
theorem exists_blanks_trimEnd (text : List Char) :
    ∃ after, text = trimEnd text ++ after ∧ ∀ c ∈ after, isBlank c = true := by
  obtain ⟨before, htext, hblank⟩ := exists_blanks_trimStart text.reverse
  refine ⟨before.reverse, ?_, fun c hc => hblank c (List.mem_reverse.1 hc)⟩
  calc text = text.reverse.reverse := text.reverse_reverse.symm
    _ = (before ++ trimStart text.reverse).reverse := by rw [← htext]
    _ = trimEnd text ++ before.reverse := List.reverse_append

/-- What is left by `trim` does not begin with a blank. -/
theorem head_trim (cs : List Char) {c : Char} (h : (trim cs).head? = some c) :
    isBlank c = false := by
  obtain ⟨blanks, hb, -⟩ := exists_blanks_trimEnd (trimStart cs)
  refine head_trimStart cs (c := c) ?_
  rw [hb]
  change (trimEnd (trimStart cs)).head? = some c at h
  cases ht : trimEnd (trimStart cs) with
  | nil => simp [ht] at h
  | cons d ds => rw [ht] at h; simpa using h

/-- What is left by `trim` does not end with a blank. -/
theorem getLast_trim (cs : List Char) {c : Char} (h : (trim cs).getLast? = some c) :
    isBlank c = false :=
  getLast_trimEnd _ h

end AccessTokens.Text
