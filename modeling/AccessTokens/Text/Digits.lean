/-!
# Fields of digits

A number in a field of fixed width is written in some base, most significant digit first, filled up
with zeros on the left and cut to its last digits. The digits are `0` to `9`, then the lower-case
letters.
-/

namespace AccessTokens.Text

/-- The last `width` digits of a number in a base, with zeros on the left. -/
def fixedDigits (base : Nat) : Nat → Nat → List Char
  | 0, _ => []
  | width + 1, n => fixedDigits base width (n / base) ++ [Nat.digitChar (n % base)]

@[simp] theorem length_fixedDigits (base width n : Nat) :
    (fixedDigits base width n).length = width := by
  induction width generalizing n with
  | zero => rfl
  | succ width ih => simp [fixedDigits, ih]

/-- A field holds nothing but digits of its base. -/
theorem exists_of_mem_fixedDigits {base width n : Nat} (hb : 0 < base) {c : Char}
    (h : c ∈ fixedDigits base width n) : ∃ d, d < base ∧ c = Nat.digitChar d := by
  induction width generalizing n with
  | zero => simp [fixedDigits] at h
  | succ width ih =>
    simp only [fixedDigits, List.mem_append, List.mem_singleton] at h
    rcases h with h | h
    · exact ih h
    · exact ⟨_, Nat.mod_lt _ hb, h⟩

end AccessTokens.Text
