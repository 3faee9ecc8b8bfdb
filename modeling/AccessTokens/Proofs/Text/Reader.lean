import AccessTokens.Text.Decimal
import AccessTokens.Text.Reader
import Mathlib.Data.List.TakeWhile

/-!
# Reading back what was written

What a reader makes of a text is said by one equation: `r (text ++ rest) = some (a, rest)`, it takes
`text` for `a` and leaves `rest`. These are the equations of the readers from which the others are put
together. They are chained along `bind_apply`, so that the equation of a reader that is written with
`do` follows from those of its parts.
-/

namespace AccessTokens.Text.Reader

variable {α β : Type}

theorem bind_apply (r : Reader α) (f : α → Reader β) (cs : List Char) :
    (r >>= f) cs = (r cs).bind fun p => f p.1 p.2 := rfl

theorem pure_apply (a : α) (cs : List Char) : (pure a : Reader α) cs = some (a, cs) := rfl

theorem bind_of_apply {r : Reader α} {f : α → Reader β} {cs rest : List Char} {a : α}
    (h : r cs = some (a, rest)) : (r >>= f) cs = f a rest := by
  rw [bind_apply, h]
  rfl

/-- A reader whose first part refuses a text refuses it. -/
theorem bind_of_refused {r : Reader α} {f : α → Reader β} {cs : List Char} (h : r cs = none) :
    (r >>= f) cs = none := by
  rw [bind_apply, h]
  rfl

theorem satisfying_cons {p : Char → Bool} {c : Char} (h : p c = true) (rest : List Char) :
    satisfying p (c :: rest) = some (c, rest) := if_pos h

theorem char_cons (c : Char) (rest : List Char) : char c (c :: rest) = some ((), rest) := by
  rw [char, bind_of_apply (satisfying_cons (by simp) rest)]
  rfl

theorem peek_apply (cs : List Char) : peek cs = some (cs.head?, cs) := rfl

/-- As many digits are taken as there may be, whatever follows them. A field of full width is read like
this: more digits may follow, and they belong to something else. -/
theorem digits_append (least : Nat) (ds : List Char) (h : ∀ c ∈ ds, c.isDigit = true)
    (hl : least ≤ ds.length) (rest : List Char) :
    digits least ds.length (ds ++ rest) = some (ds, rest) := by
  have hself : ds.takeWhile Char.isDigit = ds := List.takeWhile_eq_self_iff.2 h
  -- what follows may be digits as well, but no more than these are looked at
  have htake : ((ds ++ rest).take ds.length).takeWhile Char.isDigit = ds := by
    rw [List.take_left', hself]
    rfl
  rw [digits, htake, if_pos hl, List.drop_left']
  rfl

/-- A text that begins with something else than a digit has no digits to take. -/
theorem digits_of_not_digit {least : Nat} (hl : 0 < least) (most : Nat) {c : Char}
    (hc : c.isDigit = false) (rest : List Char) : digits least most (c :: rest) = none := by
  have hnone : ((c :: rest).take most).takeWhile Char.isDigit = [] := by
    cases most with
    | zero => rfl
    | succ most => exact List.takeWhile_cons_of_neg (by simp [hc])
  rw [digits, hnone]
  exact if_neg (Nat.not_le.2 hl)

/-- A run of characters ends where one without the property stands. Unlike a field it has no width, so what
follows has to end it. -/
theorem run_append {p : Char → Bool} {ds rest : List Char} (h : ∀ c ∈ ds, p c = true)
    (hrest : ∀ c ∈ rest.head?, p c = false) : run p (ds ++ rest) = some (ds, rest) := by
  -- a run is not bounded, so what follows must not go on with it
  have hnone : rest.takeWhile p = [] ∧ rest.dropWhile p = rest := by
    cases rest with
    | nil => exact ⟨rfl, rfl⟩
    | cons c cs =>
      have hc := hrest c rfl
      exact ⟨List.takeWhile_cons_of_neg (by simp [hc]), List.dropWhile_cons_of_neg (by simp [hc])⟩
  rw [run, List.takeWhile_append_of_pos h, List.dropWhile_append_of_pos h, hnone.1, hnone.2,
    List.append_nil]

theorem whole?_of_apply {r : Reader α} {cs : List Char} {a : α} (h : r cs = some (a, [])) :
    r.whole? cs = some a := by
  rw [whole?, StateT.run, h]

theorem whole?_of_refused {r : Reader α} {cs : List Char} (h : r cs = none) :
    r.whole? cs = none := by
  rw [whole?, StateT.run, h]

end AccessTokens.Text.Reader
