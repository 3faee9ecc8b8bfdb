import AccessTokens.Secret
import Mathlib.Data.List.Basic

/-!
# How a secret is laid out

A secret is a label, two hexadecimal digits for each of its bytes, and eight digits of a checksum. This
file says so of the texts alone (`Secret.IsLaidOut`): the digits are lower-case ones that read back as the
bytes (`Hex.toBytes?`), and the whole passes the test that needs no store. What `Secret.compose` puts
together from the digits of some bytes is laid out like this, whatever the label (`isLaidOut_compose`).
-/

namespace AccessTokens

namespace Hex

/-- Reads two digits for each byte. -/
def toBytes? : List Char → Option (List UInt8)
  | [] => some []
  | [_] => none
  | high :: low :: rest =>
    match digitValue? high, digitValue? low, toBytes? rest with
    | some h, some l, some bytes => some (UInt8.ofNat (16 * h + l) :: bytes)
    | _, _, _ => none

/-- The upper half of a byte comes before the lower one. -/
theorem ofBytes_cons (b : UInt8) (bs : List UInt8) : ofBytes (b :: bs) =
    Nat.digitChar (b.toNat / 16) :: Nat.digitChar (b.toNat % 16) :: ofBytes bs := by
  have hhigh : b.toNat / 16 % 16 = b.toNat / 16 := by
    have := b.toNat_lt
    omega
  show Text.fixedDigits 16 2 b.toNat ++ ofBytes bs = _
  unfold Text.fixedDigits Text.fixedDigits Text.fixedDigits
  rw [hhigh]
  rfl

/-- The digits of some bytes read back as those bytes. There are two digits for each byte, so no byte runs
into the next one. -/
theorem toBytes?_ofBytes (bs : List UInt8) : toBytes? (ofBytes bs) = some bs := by
  induction bs with
  | nil => rfl
  | cons b bs ih =>
    have hhigh : b.toNat / 16 < 16 := by
      have := b.toNat_lt
      omega
    have hvalue : 16 * (b.toNat / 16) + b.toNat % 16 = b.toNat := Nat.div_add_mod _ _
    rw [ofBytes_cons]
    unfold toBytes?
    rw [digitValue?_digitChar hhigh, digitValue?_digitChar (Nat.mod_lt _ (by decide)), ih]
    dsimp only
    rw [hvalue, UInt8.ofNat_toNat]

theorem isAscii_of_isDigit {cs : List Char} (h : ∀ c ∈ cs, isDigit c = true) :
    Text.isAscii cs = true := by
  unfold Text.isAscii
  rw [List.all_eq_true]
  intro c hc
  have hdigit := h c hc
  unfold isDigit at hdigit
  simp only [Bool.or_eq_true, Bool.and_eq_true, decide_eq_true_eq, Char.le_def,
    UInt32.le_iff_toNat_le] at hdigit
  -- both ranges of digits end below 128
  have hnine : ('9' : Char).val.toNat = 57 := rfl
  have hf : ('f' : Char).val.toNat = 102 := rfl
  refine decide_eq_true ?_
  show c.val.toNat < 128
  omega

end Hex

namespace Secret

/-- A secret is a label, the digits of some bytes, and eight digits more with which it passes the test of
its checksum. -/
structure IsLaidOut (label : String) (bytes : List UInt8) (secret : String) : Prop where
  parts : ∃ digits check : List Char, secret.toList = label.toList ++ digits ++ check ∧
    digits.length = 2 * bytes.length ∧ Hex.toBytes? digits = some bytes ∧
    check.length = checksumLength ∧ ∀ c ∈ digits ++ check, Hex.isDigit c = true
  passes : checksumMatches secret label = true

/-- The checksum that was put behind a body is the one that is asked for. The body has to be there and has
to be ASCII, which the test asks for; the label may be any text. -/
theorem checksumMatches_compose {label body : String} (hne : body.toList ≠ [])
    (hascii : Text.isAscii body.toList = true) :
    checksumMatches (compose label body) label = true := by
  have hcut : Text.after? label.toList (compose label body).toList =
      some (body.toList ++ checksumText body.toList) := by
    rw [Text.after?_eq_some_iff]
    simp [compose, List.append_assoc]
  -- the test looks behind the label, and wants ASCII there: the checksum is digits
  have hcheck : Text.isAscii (checksumText body.toList) = true :=
    Hex.isAscii_of_isDigit fun _ hc => Hex.isDigit_of_mem_ofWord hc
  have hwhole : Text.isAscii (body.toList ++ checksumText body.toList) = true := by
    unfold Text.isAscii at hascii hcheck ⊢
    rw [List.all_append, hascii, hcheck]
    rfl
  have hpos : 0 < body.toList.length := List.length_pos_iff.2 hne
  have hlength : (body.toList ++ checksumText body.toList).length - checksumLength =
      body.toList.length := by
    rw [List.length_append, length_checksumText, Nat.add_sub_cancel]
  have hlong : checksumLength < (body.toList ++ checksumText body.toList).length := by
    rw [List.length_append, length_checksumText]
    omega
  unfold checksumMatches
  rw [hcut]
  dsimp only
  -- the cut falls between the body and the checksum
  rw [hlength, List.take_left, List.drop_left, hwhole, decide_eq_true hlong, beq_self_eq_true]
  rfl

theorem isLaidOut_compose (label : String) {bytes : List UInt8} (hne : bytes ≠ []) :
    IsLaidOut label bytes (compose label (String.ofList (Hex.ofBytes bytes))) where
  parts := by
    refine ⟨Hex.ofBytes bytes, checksumText (Hex.ofBytes bytes), ?_, Hex.length_ofBytes bytes,
      Hex.toBytes?_ofBytes bytes, length_checksumText _, ?_⟩
    · simp [compose]
    · intro c hc
      rcases List.mem_append.1 hc with hc | hc
      · exact Hex.isDigit_of_mem_ofBytes hc
      · exact Hex.isDigit_of_mem_ofWord hc
  passes := by
    -- without a byte there is no body, and a checksum alone does not pass
    have hpos : 0 < (Hex.ofBytes bytes).length := by
      rw [Hex.length_ofBytes]
      exact Nat.mul_pos (by decide) (List.length_pos_iff.2 hne)
    refine checksumMatches_compose ?_ ?_
    · rw [String.toList_ofList]
      exact List.length_pos_iff.1 hpos
    · rw [String.toList_ofList]
      exact Hex.isAscii_of_isDigit fun _ hc => Hex.isDigit_of_mem_ofBytes hc

end Secret

end AccessTokens
