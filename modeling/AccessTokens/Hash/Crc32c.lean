/-!
# CRC-32C

The cyclic redundancy check with the Castagnoli polynomial, in its reflected form: the register starts
with all bits set, takes in each byte at its low end, divides one bit at a time, and is complemented at
the end.

The register is a `BitVec 32`. Its one-bit step (`shift`) is injective, since the polynomial has its
top bit set: the bit that leaves the register can be read off the top bit of the result
(`shift_injective`).
-/

namespace AccessTokens.Crc32c

/-- The Castagnoli polynomial, lowest power in the top bit. -/
def polynomial : BitVec 32 := 0x82F63B78#32

/-- Divides by one bit: the register moves down, and the polynomial is added when a one leaves it. -/
def shift (r : BitVec 32) : BitVec 32 :=
  if r.getLsbD 0 then (r >>> 1) ^^^ polynomial else r >>> 1

/-- Divides by `n` bits. -/
def shifts (n : Nat) (r : BitVec 32) : BitVec 32 := n.repeat shift r

/-- Takes a byte into the register. -/
def step (r : BitVec 32) (b : UInt8) : BitVec 32 := shifts 8 (r ^^^ b.toBitVec.setWidth 32)

/-- The register after a list of bytes. -/
def register (bs : List UInt8) (r : BitVec 32) : BitVec 32 := bs.foldl step r

/-- The checksum of a list of bytes. -/
def checksum (bs : List UInt8) : BitVec 32 := ~~~ register bs (~~~ 0#32)

/-- The top bit of a step is the bit that has left the register. -/
theorem getLsbD_shift_top (r : BitVec 32) : (shift r).getLsbD 31 = r.getLsbD 0 := by
  have h : (r >>> 1).getLsbD 31 = false := by
    rw [BitVec.getLsbD_ushiftRight]; exact BitVec.getLsbD_of_ge r _ (by decide)
  have hp : polynomial.getLsbD 31 = true := by decide
  unfold shift
  split
  · rename_i h0; rw [BitVec.getLsbD_xor, h, hp, h0]; rfl
  · rename_i h0; rw [h]; simpa using h0

/-- A step can be undone. -/
theorem shift_injective {r s : BitVec 32} (h : shift r = shift s) : r = s := by
  have h0 : r.getLsbD 0 = s.getLsbD 0 := by
    rw [← getLsbD_shift_top r, ← getLsbD_shift_top s, h]
  have h1 : r >>> 1 = s >>> 1 := by
    unfold shift at h
    rw [h0] at h
    split at h
    · have := congrArg (· ^^^ polynomial) h
      simpa [BitVec.xor_assoc] using this
    · exact h
  apply BitVec.eq_of_getLsbD_eq
  intro i hi
  cases i with
  | zero => exact h0
  | succ i =>
    have := congrArg (fun x => x.getLsbD i) h1
    simpa [BitVec.getLsbD_ushiftRight, Nat.add_comm] using this

theorem register_append (xs ys : List UInt8) (r : BitVec 32) :
    register (xs ++ ys) r = register ys (register xs r) :=
  List.foldl_append

/-- The check value: the checksum of the digits one to nine. -/
example : checksum [0x31, 0x32, 0x33, 0x34, 0x35, 0x36, 0x37, 0x38, 0x39] = 0xE3069283#32 := by
  decide +kernel

end AccessTokens.Crc32c
