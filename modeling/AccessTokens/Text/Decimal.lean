import AccessTokens.Text.Digits

/-!
# Decimal numerals

Whole numbers are written in base ten without a sign when they are not negative, with `-` when they
are, and never with leading zeros (`ofNat`, `ofInt`). A number in a field of fixed width is filled up
with zeros on the left and cut to its last digits (`fixed`).

`unsigned64?` reads the numerals that a setting may hold: at most one `+`, then one or more ASCII
digits, leading zeros without limit, with a value below 2⁶⁴. Main statements: the digits of a number
read back as that number (`value_ofNat`), and they are digits (`isDigit_of_mem_ofNat`,
`isDigit_of_mem_fixed`).
-/

namespace AccessTokens.Decimal

/-- The number that a list of digits stands for. -/
def value (ds : List Char) : Nat := Nat.ofDigitChars 10 ds 0

/-- The digits of a number. -/
def ofNat (n : Nat) : List Char := Nat.toDigits 10 n

/-- The digits of a number after its sign, if it is negative. -/
def ofInt : Int → List Char
  | .ofNat n => ofNat n
  | .negSucc n => '-' :: ofNat (n + 1)

/-- The text of a 64-bit integer. -/
def text (n : Int64) : String := String.ofList (ofInt n.toInt)

/-- The last `width` digits of a number, with zeros on the left. -/
def fixed (width n : Nat) : List Char := Text.fixedDigits 10 width n

/-- Reads at most one `+`, then one or more digits, with a value below 2⁶⁴. -/
def unsigned64? (cs : List Char) : Option Nat :=
  let ds := if cs.head? = some '+' then cs.tail else cs
  if ds ≠ [] ∧ ds.all Char.isDigit ∧ value ds < UInt64.size then some (value ds) else none

theorem isDigit_of_mem_ofNat {n : Nat} {c : Char} (h : c ∈ ofNat n) : c.isDigit = true :=
  Nat.isDigit_of_mem_toDigits (by decide) (by decide) h

theorem ofNat_ne_nil (n : Nat) : ofNat n ≠ [] := Nat.toDigits_ne_nil

/-- The text of an integer is the one that Lean prints. -/
theorem text_eq_toString (n : Int64) : text n = toString n := by
  show String.ofList (ofInt n.toInt) = Int.repr n.toInt
  cases n.toInt with
  | ofNat m => rfl
  | negSucc m =>
    show String.ofList ('-' :: ofNat (m + 1)) = "-" ++ String.ofList (ofNat (m + 1))
    rw [← String.toList_inj]
    simp

/-- The digits of a number read back as that number. -/
theorem value_ofNat (n : Nat) : value (ofNat n) = n :=
  Nat.ofDigitChars_toDigits (by decide) (by decide)

theorem isDigit_digitChar {d : Nat} (h : d < 10) : (Nat.digitChar d).isDigit = true := by
  revert d; decide

theorem toNat_digitChar_sub {d : Nat} (h : d < 10) : (Nat.digitChar d).toNat - '0'.toNat = d := by
  revert d; decide

/-- A further digit multiplies the value by ten and adds its own. -/
theorem value_append_digitChar (ds : List Char) {d : Nat} (h : d < 10) :
    value (ds ++ [Nat.digitChar d]) = 10 * value ds + d := by
  rw [value, Nat.ofDigitChars_append, Nat.ofDigitChars_cons, Nat.ofDigitChars_nil,
    toNat_digitChar_sub h]
  rfl

/-- Zeros before some digits do not change their value. -/
theorem value_zeros_append (zeros : Nat) (ds : List Char) :
    value (List.replicate zeros '0' ++ ds) = value ds := by
  induction zeros with
  | zero => rfl
  | succ zeros ih => exact ih

@[simp] theorem length_fixed (width n : Nat) : (fixed width n).length = width :=
  Text.length_fixedDigits 10 width n

theorem isDigit_of_mem_fixed {width n : Nat} {c : Char} (h : c ∈ fixed width n) :
    c.isDigit = true := by
  obtain ⟨d, hd, rfl⟩ := Text.exists_of_mem_fixedDigits (by decide) h
  exact isDigit_digitChar hd

end AccessTokens.Decimal
