import AccessTokens.Text.Hex

/-!
# Percent encoding

In a percent-encoded text a `%` and two hexadecimal digits stand for one byte. Every other byte stands
for itself, and so does a `%` that two digits do not follow (`Percent.decode`).
-/

namespace AccessTokens.Percent

/-- The byte that announces two digits. -/
def mark : UInt8 := '%'.toUInt8

/-- The value of a byte that is a hexadecimal digit. -/
def digitValue? (b : UInt8) : Option Nat := Hex.digitValue? (Char.ofNat b.toNat)

/-- The bytes that a percent-encoded text stands for. -/
def decode : List UInt8 → List UInt8
  | b :: x :: y :: rest =>
    if b = mark then
      match digitValue? x, digitValue? y with
      | some m, some n => UInt8.ofNat (16 * m + n) :: decode rest
      | _, _ => b :: decode (x :: y :: rest)
    else b :: decode (x :: y :: rest)
  | bs => bs

end AccessTokens.Percent
