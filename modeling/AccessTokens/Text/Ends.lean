/-!
# What stands before and after

`after? start whole` is what follows `start` in a text that begins with it, and `before? ending whole`
what precedes `ending` in a text that ends with it. A text is a list here, of characters or of bytes.
-/

namespace AccessTokens.Text

variable {α : Type} [DecidableEq α]

/-- What follows a text at the start of another one. -/
def after? (start whole : List α) : Option (List α) :=
  if start.isPrefixOf whole then some (whole.drop start.length) else none

/-- What precedes a text at the end of another one. -/
def before? (ending whole : List α) : Option (List α) :=
  (after? ending.reverse whole.reverse).map List.reverse

theorem after?_eq_some_iff {start whole rest : List α} :
    after? start whole = some rest ↔ whole = start ++ rest := by
  unfold after?
  constructor
  · intro h
    split at h
    · rename_i hp
      obtain ⟨t, rfl⟩ := List.isPrefixOf_iff_prefix.1 hp
      simp at h
      rw [h]
    · cases h
  · rintro rfl
    simp

theorem after?_eq_none_iff {start whole : List α} : after? start whole = none ↔ ¬ start <+: whole := by
  unfold after?
  rw [← List.isPrefixOf_iff_prefix]
  split
  · rename_i hp
    simp [hp]
  · rename_i hp
    simp [hp]

theorem before?_eq_some_iff {ending whole rest : List α} :
    before? ending whole = some rest ↔ whole = rest ++ ending := by
  rw [before?, Option.map_eq_some_iff]
  constructor
  · rintro ⟨t, ht, rfl⟩
    rw [after?_eq_some_iff] at ht
    rw [← List.reverse_reverse whole, ht, List.reverse_append, List.reverse_reverse]
  · rintro rfl
    exact ⟨rest.reverse, by rw [after?_eq_some_iff, List.reverse_append], by simp⟩

end AccessTokens.Text
