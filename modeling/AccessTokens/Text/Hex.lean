import AccessTokens.Text.Digits

/-!
# Hexadecimal text

Bytes and 32-bit words are written with lower-case hexadecimal digits, most significant first, two
digits for a byte and eight for a word. `digitValue?` reads one digit of either case.
-/

namespace AccessTokens.Hex

/-- The digits of a list of bytes, two for each. -/
def ofBytes (bs : List UInt8) : List Char := bs.flatMap fun b => Text.fixedDigits 16 2 b.toNat

/-- The eight digits of a word. -/
def ofWord (w : BitVec 32) : List Char := Text.fixedDigits 16 8 w.toNat

/-- The value of a hexadecimal digit of either case. -/
def digitValue? (c : Char) : Option Nat :=
  if '0' ≤ c ∧ c ≤ '9' then some (c.toNat - '0'.toNat)
  else if 'a' ≤ c ∧ c ≤ 'f' then some (c.toNat - 'a'.toNat + 10)
  else if 'A' ≤ c ∧ c ≤ 'F' then some (c.toNat - 'A'.toNat + 10)
  else none

/-- Tells the hexadecimal digits that are written, which are the lower-case ones. -/
def isDigit (c : Char) : Bool := ('0' ≤ c && c ≤ '9') || ('a' ≤ c && c ≤ 'f')

theorem isDigit_digitChar {d : Nat} (h : d < 16) : isDigit (Nat.digitChar d) = true := by
  revert d; decide

theorem digitValue?_digitChar {d : Nat} (h : d < 16) :
    digitValue? (Nat.digitChar d) = some d := by
  revert d; decide

@[simp] theorem length_ofBytes (bs : List UInt8) : (ofBytes bs).length = 2 * bs.length := by
  induction bs with
  | nil => rfl
  | cons b bs ih =>
    rw [ofBytes] at ih
    simp only [ofBytes, List.flatMap_cons, List.length_append, Text.length_fixedDigits, ih,
      List.length_cons]
    omega

theorem isDigit_of_mem_ofBytes {bs : List UInt8} {c : Char} (h : c ∈ ofBytes bs) :
    isDigit c = true := by
  obtain ⟨b, -, hc⟩ := List.mem_flatMap.1 h
  obtain ⟨d, hd, rfl⟩ := Text.exists_of_mem_fixedDigits (by decide) hc
  exact isDigit_digitChar hd

@[simp] theorem length_ofWord (w : BitVec 32) : (ofWord w).length = 8 :=
  Text.length_fixedDigits 16 8 _

theorem isDigit_of_mem_ofWord {w : BitVec 32} {c : Char} (h : c ∈ ofWord w) :
    isDigit c = true := by
  obtain ⟨d, hd, rfl⟩ := Text.exists_of_mem_fixedDigits (by decide) h
  exact isDigit_digitChar hd

end AccessTokens.Hex
