import AccessTokens.Proofs.Hash.Register
import AccessTokens.Proofs.Secret.Checksum
import Mathlib.Algebra.Group.Nat.Defs
import Mathlib.Data.List.Basic

/-!
# What the checksum of a secret catches

A secret was written down or typed, and its body came out with other characters in one place. When the
place is a window of at most four characters (`Text.DifferWithin`), the secret does not pass the test of
its checksum any more. This covers a mistyped character and two neighbours in the wrong order.

The two bodies are then the same before the window and behind it (`DifferWithin.exists_parts`). Each
character of an ASCII body is one byte, so the window is four bytes at most, and the register tells them
apart whatever stands around them (`Crc32c.checksum_inj_of_window`). Checksums that differ are written with
different digits (`Hex.ofWord_inj`), so the digits that were kept do not fit (`checksumMatches_of_replaced`).

Main statement: `corruption_is_caught`.
-/

namespace AccessTokens

namespace Text

variable {α : Type}

/-- Two texts of the same length are the same outside of a window of some width. -/
structure DifferWithin (width : Nat) (xs ys : List α) : Prop where
  length_eq : xs.length = ys.length
  window : ∃ start, ∀ i, i < start ∨ start + width ≤ i → xs[i]? = ys[i]?

/-- The same text stands before the window and behind it. What stands in the window is of the same length in
both, and no longer than the window, which may reach beyond the end. -/
theorem DifferWithin.exists_parts {width : Nat} {xs ys : List α} (h : DifferWithin width xs ys) :
    ∃ before old new after, xs = before ++ old ++ after ∧ ys = before ++ new ++ after ∧
      old.length = new.length ∧ old.length ≤ width := by
  -- Both texts are cut at the start of the window and at its end. Outside they are the same character by
  -- character, and inside they are equally long.
  obtain ⟨start, houtside⟩ := h.window
  have hcut (zs : List α) : zs =
      zs.take start ++ (zs.drop start).take width ++ zs.drop (start + width) := by
    rw [List.append_assoc, ← List.drop_drop, List.take_append_drop, List.take_append_drop]
  have hbefore : ys.take start = xs.take start := by
    apply List.ext_getElem?
    intro i
    rw [List.getElem?_take, List.getElem?_take]
    split
    · next hi => exact (houtside i (Or.inl hi)).symm
    · rfl
  have hafter : ys.drop (start + width) = xs.drop (start + width) := by
    apply List.ext_getElem?
    intro i
    rw [List.getElem?_drop, List.getElem?_drop]
    exact (houtside _ (Or.inr (Nat.le_add_right _ i))).symm
  refine ⟨_, _, (ys.drop start).take width, _, hcut xs, ?_, ?_, ?_⟩
  · rw [← hbefore, ← hafter]
    exact hcut ys
  · rw [List.length_take, List.length_take, List.length_drop, List.length_drop, h.length_eq]
  · exact List.length_take_le _ _

theorem DifferWithin.of_parts {width : Nat} (before old new after : List α)
    (hlength : old.length = new.length) (hwidth : old.length ≤ width) :
    DifferWithin width (before ++ old ++ after) (before ++ new ++ after) where
  length_eq := by simp [hlength]
  window := by
    refine ⟨before.length, fun i hi => ?_⟩
    rw [List.append_assoc, List.append_assoc]
    rcases hi with hfront | hback
    · rw [List.getElem?_append_left hfront, List.getElem?_append_left hfront]
    · -- behind the window both are read at the same place of what follows
      have hbefore : before.length ≤ i := by omega
      have hold : old.length ≤ i - before.length := by omega
      rw [List.getElem?_append_right hbefore, List.getElem?_append_right hbefore,
        List.getElem?_append_right hold, List.getElem?_append_right (hlength ▸ hold), hlength]

/-- A text can be got back from its bytes. -/
theorem bytesOf_inj {xs ys : List Char} (h : bytesOf xs = bytesOf ys) : xs = ys := by
  have hbytes : (String.ofList xs).toByteArray = (String.ofList ys).toByteArray := by
    rw [String.toByteArray_ofList, String.toByteArray_ofList]
    exact congrArg List.toByteArray h
  have htext := congrArg String.toList (String.toByteArray_inj.1 hbytes)
  rw [String.toList_ofList, String.toList_ofList] at htext
  exact htext

theorem length_bytesOf {cs : List Char} (h : isAscii cs = true) : (bytesOf cs).length = cs.length := by
  rw [bytesOf_of_isAscii h, List.length_map]

theorem digitChar_inj {d e : Nat} (hd : d < 16) (he : e < 16)
    (h : Nat.digitChar d = Nat.digitChar e) : d = e := by
  have hall : ∀ d < 16, ∀ e < 16, Nat.digitChar d = Nat.digitChar e → d = e := by decide
  exact hall d hd e he h

/-- Numbers that fit in a field are told apart by its digits. A greater number would have lost its upper
digits. -/
theorem fixedDigits_inj {base width m n : Nat} (hbase : base ≤ 16) (hm : m < base ^ width)
    (hn : n < base ^ width) (h : fixedDigits base width m = fixedDigits base width n) : m = n := by
  -- The last digits agree, and before them stand the digits of the quotients.
  induction width generalizing m n with
  | zero =>
    rw [Nat.pow_zero] at hm hn
    omega
  | succ width ih =>
    rw [Nat.pow_succ'] at hm hn
    have hpos : 0 < base := Nat.pos_of_mul_pos_right (Nat.zero_lt_of_lt hm)
    obtain ⟨hfront, hlast⟩ := List.append_inj' h rfl
    have hmod : m % base = n % base :=
      digitChar_inj (Nat.lt_of_lt_of_le (Nat.mod_lt m hpos) hbase)
        (Nat.lt_of_lt_of_le (Nat.mod_lt n hpos) hbase) (List.cons.inj hlast).1
    have hdiv : m / base = n / base :=
      ih (Nat.div_lt_of_lt_mul hm) (Nat.div_lt_of_lt_mul hn) hfront
    rw [← Nat.div_add_mod m base, hdiv, hmod, Nat.div_add_mod]

end Text

/-- Words are told apart by their digits. -/
theorem Hex.ofWord_inj {v w : BitVec 32} (h : ofWord v = ofWord w) : v = w := by
  have hfits (u : BitVec 32) : u.toNat < 16 ^ 8 := u.isLt
  exact BitVec.eq_of_toNat_eq (Text.fixedDigits_inj (Nat.le_refl 16) (hfits v) (hfits w) h)

namespace Secret

variable {label body altered check : String}

/-- Only one choice of up to four ASCII characters in a row gives a checksum. The characters around them may
be any, also such as take several bytes. -/
theorem checksumText_inj_of_window {before old new after : List Char}
    (hascii : ∀ c ∈ old, c.toNat < 128) (hascii' : ∀ c ∈ new, c.toNat < 128)
    (hlength : old.length = new.length) (hwidth : old.length ≤ 4)
    (h : checksumText (before ++ old ++ after) = checksumText (before ++ new ++ after)) :
    old = new := by
  rw [← Text.isAscii_iff] at hascii hascii'
  have hword : Crc32c.checksum (Text.bytesOf (before ++ old ++ after)) =
      Crc32c.checksum (Text.bytesOf (before ++ new ++ after)) := Hex.ofWord_inj h
  rw [Text.bytesOf_append, Text.bytesOf_append, Text.bytesOf_append, Text.bytesOf_append] at hword
  have hbytes : (Text.bytesOf old).length = (Text.bytesOf new).length := by
    rw [Text.length_bytesOf hascii, Text.length_bytesOf hascii', hlength]
  refine Text.bytesOf_inj (Crc32c.checksum_inj_of_window hbytes ?_ hword)
  rw [Text.length_bytesOf hascii]
  exact hwidth

/-- The characters behind the body of a composed secret are its checksum. -/
theorem check_of_compose (h : compose label body = label ++ body ++ check) :
    check = String.ofList (checksumText body.toList) :=
  ((String.append_right_inj (label ++ body)).1 h).symm

/-- **Other characters in a window do not pass.** The checksum behind the altered body would have to be
the one of this body, and so of the first body, too. -/
theorem checksumMatches_of_replaced (hcheck : compose label body = label ++ body ++ check)
    (hascii : ∀ c ∈ body.toList, c.toNat < 128) {before old new after : List Char}
    (hbody : body.toList = before ++ old ++ after)
    (haltered : altered.toList = before ++ new ++ after) (hlength : old.length = new.length)
    (hwidth : old.length ≤ 4) (hnew : ∀ c ∈ new, c.toNat < 128) (hne : new ≠ old) :
    checksumMatches (label ++ altered ++ check) label = false := by
  have hold : ∀ c ∈ old, c.toNat < 128 := by
    intro c hc
    apply hascii
    rw [hbody]
    exact List.mem_append_left _ (List.mem_append_right _ hc)
  rw [Bool.eq_false_iff]
  intro hpasses
  -- What passes is composed of some body, which can only be the altered one, with the checksum that was kept.
  obtain ⟨other, -, -, hcomposed⟩ := exists_composed_of_checksumMatches hpasses
  have hchecksum := check_of_compose hcheck
  have hdigits : check.toList.length = checksumLength := by
    rw [hchecksum, String.toList_ofList, length_checksumText]
  obtain ⟨rfl, hother⟩ := parts_of_compose hdigits hcomposed
  rw [hchecksum, String.ofList_inj, hbody, haltered] at hother
  exact hne (checksumText_inj_of_window hold hnew hlength hwidth hother).symm

/-- **Local corruption is caught.** A secret was composed of a label and an ASCII body, and its checksum
stands behind the body. The secret passes, if there is a body at all. It does not pass any more when

* the body was replaced by another ASCII body of the same length, which is the same outside of a window of
  four characters;
* one character of the body was replaced by another ASCII character;
* two neighbours in the body that differ have changed places. -/
theorem corruption_is_caught (hcheck : compose label body = label ++ body ++ check)
    (hascii : ∀ c ∈ body.toList, c.toNat < 128) :
    (body ≠ "" → checksumMatches (label ++ body ++ check) label = true) ∧
    (∀ altered : String, (∀ c ∈ altered.toList, c.toNat < 128) → altered ≠ body →
      Text.DifferWithin 4 body.toList altered.toList →
        checksumMatches (label ++ altered ++ check) label = false) ∧
    (∀ (before after : List Char) (typed mistyped : Char), body.toList = before ++ typed :: after →
      mistyped ≠ typed → mistyped.toNat < 128 →
        checksumMatches (label ++ String.ofList (before ++ mistyped :: after) ++ check) label = false) ∧
    (∀ (before after : List Char) (first second : Char),
      body.toList = before ++ first :: second :: after → first ≠ second →
        checksumMatches (label ++ String.ofList (before ++ second :: first :: after) ++ check) label =
          false) := by
  refine ⟨?_, ?_, ?_, ?_⟩
  · intro hne
    rw [← hcheck, checksumMatches_iff]
    exact ⟨body, hne, hascii, rfl⟩
  · intro altered hascii' hne hwindow
    obtain ⟨before, old, new, after, hbody, haltered, hlength, hwidth⟩ := hwindow.exists_parts
    refine checksumMatches_of_replaced hcheck hascii hbody haltered hlength hwidth ?_ ?_
    · exact fun c hc => hascii' c (by simp [haltered, hc])
    · rintro rfl
      exact hne (String.toList_inj.1 (haltered.trans hbody.symm))
  · intro before after typed mistyped hbody hne hmistyped
    -- the window is the one character
    have hold : body.toList = before ++ [typed] ++ after := by rw [hbody, List.append_cons]
    have hnew : (String.ofList (before ++ mistyped :: after)).toList = before ++ [mistyped] ++ after := by
      rw [String.toList_ofList, List.append_cons]
    refine checksumMatches_of_replaced hcheck hascii hold hnew rfl (by simp) ?_ ?_
    · exact fun c hc => (List.mem_singleton.1 hc).symm ▸ hmistyped
    · exact fun hsame => hne (List.singleton_inj.1 hsame)
  · intro before after first second hbody hne
    -- the window is the two neighbours
    have hold : body.toList = before ++ [first, second] ++ after := by
      rw [hbody, List.append_cons, List.append_cons, List.append_assoc before]
      rfl
    have hnew : (String.ofList (before ++ second :: first :: after)).toList =
        before ++ [second, first] ++ after := by
      rw [String.toList_ofList, List.append_cons, List.append_cons, List.append_assoc before]
      rfl
    refine checksumMatches_of_replaced hcheck hascii hold hnew rfl (by simp) ?_ ?_
    · intro c hc
      rw [(List.Perm.swap first second []).mem_iff] at hc
      exact hascii c (by rw [hold]; exact List.mem_append_left _ (List.mem_append_right _ hc))
    · exact fun hsame => hne (List.cons.inj hsame).1.symm

/-- A label that is not ASCII and a body of sixteen digits, of which the four last ones are others, the
first one is mistyped, and the second and the third have changed places. -/
theorem corruption_is_caught_lastFour :
    compose "é" "0123456789abcdef" = "é" ++ "0123456789abcdef" ++ "42d3119e" ∧
      (∀ c ∈ "0123456789abcdef".toList, c.toNat < 128) ∧
      checksumMatches ("é" ++ "0123456789abffff" ++ "42d3119e") "é" = false ∧
      checksumMatches ("é" ++ "x123456789abcdef" ++ "42d3119e") "é" = false ∧
      checksumMatches ("é" ++ "0213456789abcdef" ++ "42d3119e") "é" = false := by
  have hcheck : compose "é" "0123456789abcdef" = "é" ++ "0123456789abcdef" ++ "42d3119e" := by
    decide +kernel
  have hascii : ∀ c ∈ "0123456789abcdef".toList, c.toNat < 128 :=
    Text.isAscii_iff.1 (by decide)
  obtain ⟨-, hwindow, hmistyped, hswapped⟩ := corruption_is_caught hcheck hascii
  have hlast : Text.DifferWithin 4 "0123456789abcdef".toList "0123456789abffff".toList :=
    .of_parts "0123456789ab".toList "cdef".toList "ffff".toList [] rfl (by decide)
  refine ⟨hcheck, hascii, hwindow _ (Text.isAscii_iff.1 (by decide)) (by decide) hlast, ?_, ?_⟩
  · exact hmistyped [] "123456789abcdef".toList '0' 'x' (by decide) (by decide) (by decide)
  · exact hswapped ['0'] "3456789abcdef".toList '1' '2' (by decide) (by decide)

end Secret

end AccessTokens
