/-!
# The bytes of a text

Digests and checksums are taken of the UTF-8 bytes of a text (`bytes`). A text is ASCII when each of
its characters is one byte (`isAscii`); then the bytes are the code points (`bytesOf_of_isAscii`).
-/

namespace AccessTokens.Text

/-- The UTF-8 bytes of a list of characters. -/
def bytesOf (cs : List Char) : List UInt8 := cs.flatMap String.utf8EncodeChar

/-- The UTF-8 bytes of a text. -/
def bytes (s : String) : List UInt8 := bytesOf s.toList

/-- A text is ASCII when its code points are below 128. -/
def isAscii (cs : List Char) : Bool := cs.all fun c => c.toNat < 128

theorem bytesOf_append (xs ys : List Char) : bytesOf (xs ++ ys) = bytesOf xs ++ bytesOf ys :=
  List.flatMap_append

theorem utf8EncodeChar_of_ascii {c : Char} (h : c.toNat < 128) :
    String.utf8EncodeChar c = [c.val.toUInt8] := by
  refine String.utf8EncodeChar_eq_singleton (Char.utf8Size_eq_one_iff.2 ?_)
  rw [UInt32.le_iff_toNat_le]
  exact Nat.le_of_lt_succ h

/-- The bytes of an ASCII text are its code points. -/
theorem bytesOf_of_isAscii {cs : List Char} (h : isAscii cs = true) :
    bytesOf cs = cs.map fun c => c.val.toUInt8 := by
  induction cs with
  | nil => rfl
  | cons c cs ih =>
    simp only [isAscii, List.all_cons, Bool.and_eq_true, decide_eq_true_eq] at h
    simp only [bytesOf, List.flatMap_cons, List.map_cons, utf8EncodeChar_of_ascii h.1] at ih ⊢
    simp only [isAscii] at ih
    rw [ih h.2]
    rfl

end AccessTokens.Text
