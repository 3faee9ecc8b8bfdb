import AccessTokens.Proofs.Secret.Layout

/-!
# What the test of a checksum accepts

`Secret.checksumMatches` passes exactly the secrets that `Secret.compose` can make of the label and a
non-empty ASCII body, and of one body only (`checksum_accepts_composed`). A secret that passes is cut into
the label, a body and eight characters, which are the checksum of that body
(`exists_composed_of_checksumMatches`); and as the last eight characters are the checksum, the body is what
is left (`parts_of_compose`).

The test looks at characters. Where texts are bytes, a cut is made at an offset, and an offset may lie
within a character or beyond the end; there is then nothing to cut (`Text.cutAt?`). The same test on bytes
has an answer on all secrets and labels, and it is the same answer (`checksumMatchesBytes?_eq`): the only
offset is asked for after every character was seen to be one byte (`cutAt?_of_isAscii`).
-/

namespace AccessTokens

namespace Text

/-- The two sides of a text at an offset in its bytes. There are none when the offset lies within a
character or beyond the end. -/
def cutAt? (s : String) (offset : Nat) : Option (String × String) :=
  if h : String.Pos.Raw.IsValid s ⟨offset⟩ then
    let p : s.Pos := ⟨⟨offset⟩, h⟩
    some ((s.sliceTo p).copy, (s.sliceFrom p).copy)
  else
    none

/-- No text is cut within a character or beyond its end. -/
example : cutAt? "aé" 2 = none ∧ cutAt? "aé" 4 = none ∧ cutAt? "aé" 1 = some ("a", "é") := by
  decide +kernel

theorem cutAt?_eq_some_iff {s before after : String} {offset : Nat} :
    cutAt? s offset = some (before, after) ↔
      s = before ++ after ∧ before.utf8ByteSize = offset := by
  unfold cutAt?
  constructor
  · intro h
    split at h
    · next hvalid =>
      obtain ⟨rfl, rfl⟩ := Prod.mk.inj (Option.some.inj h)
      have hsplits := String.Pos.splits (⟨⟨offset⟩, hvalid⟩ : s.Pos)
      refine ⟨hsplits.eq_append, ?_⟩
      exact (congrArg String.Pos.Raw.byteIdx hsplits.offset_eq_rawEndPos).symm
    · cases h
  · rintro ⟨rfl, rfl⟩
    have hvalid : String.Pos.Raw.IsValid (before ++ after) ⟨before.utf8ByteSize⟩ :=
      String.Pos.Raw.isValid_iff_exists_append.2 ⟨before, after, rfl, rfl⟩
    -- the position splits the text into these two sides, and into no others
    have hsplits : (⟨⟨before.utf8ByteSize⟩, hvalid⟩ : (before ++ after).Pos).Splits before after :=
      ⟨rfl, rfl⟩
    obtain ⟨hleft, hright⟩ := (String.Pos.splits _).eq hsplits
    rw [dif_pos hvalid]
    dsimp only
    rw [hleft, hright]

theorem utf8ByteSize_ofList (cs : List Char) :
    (String.ofList cs).utf8ByteSize = (bytesOf cs).length := by
  rw [← String.size_toByteArray, String.toByteArray_ofList]
  simp [List.utf8Encode, bytesOf]

/-- Each character of an ASCII text is one byte. -/
theorem utf8ByteSize_of_isAscii {cs : List Char} (h : isAscii cs = true) :
    (String.ofList cs).utf8ByteSize = cs.length := by
  rw [utf8ByteSize_ofList, bytesOf_of_isAscii h, List.length_map]

theorem isAscii_iff {cs : List Char} : isAscii cs = true ↔ ∀ c ∈ cs, c.toNat < 128 := by
  simp [isAscii]

/-- An ASCII text is cut at every offset up to its end, and the offset counts characters. -/
theorem cutAt?_of_isAscii {cs : List Char} (h : isAscii cs = true) {offset : Nat}
    (hoffset : offset ≤ cs.length) : cutAt? (String.ofList cs) offset =
      some (String.ofList (cs.take offset), String.ofList (cs.drop offset)) := by
  have hfront : isAscii (cs.take offset) = true := by
    rw [isAscii_iff] at h ⊢
    exact fun c hc => h c (List.mem_of_mem_take hc)
  rw [cutAt?_eq_some_iff, ← String.ofList_append, List.take_append_drop, utf8ByteSize_of_isAscii hfront,
    List.length_take, Nat.min_eq_left hoffset]
  exact ⟨rfl, rfl⟩

end Text

namespace Secret

variable {secret label body other : String}

/-- The checksum is the last eight characters, and the body is what stands before them. So a text that was
composed can be taken apart in one way only, also where the body looks like digits. -/
theorem parts_of_compose {check : String} (hcheck : check.toList.length = checksumLength)
    (h : label ++ body ++ check = compose label other) :
    body = other ∧ check = String.ofList (checksumText other.toList) := by
  unfold compose at h
  rw [← String.toList_inj, String.toList_append, String.toList_append (s := label ++ other)] at h
  -- the last parts of two equal texts are equal when they are equally long, and so are the first parts
  have hlast : check.toList.length = (String.ofList (checksumText other.toList)).toList.length := by
    rw [hcheck, String.toList_ofList, length_checksumText]
  obtain ⟨hfront, hback⟩ := List.append_inj' h hlast
  exact ⟨(String.append_right_inj label).1 (String.toList_inj.1 hfront), String.toList_inj.1 hback⟩

theorem compose_inj (h : compose label body = compose label other) : body = other := by
  refine (parts_of_compose ?_ h).1
  rw [String.toList_ofList, length_checksumText]

/-- What passes was composed. The test recomputes the checksum of what stands between the label and the last
eight characters, so that is the body. -/
theorem exists_composed_of_checksumMatches (h : checksumMatches secret label = true) :
    ∃ body : String, body ≠ "" ∧ (∀ c ∈ body.toList, c.toNat < 128) ∧ secret = compose label body := by
  unfold checksumMatches at h
  split at h
  · cases h
  · next rest hrest =>
    rw [Bool.and_eq_true, Bool.and_eq_true, beq_iff_eq, decide_eq_true_eq, Text.isAscii_iff] at h
    obtain ⟨⟨hascii, hlong⟩, hcheck⟩ := h
    refine ⟨String.ofList (rest.take (rest.length - checksumLength)), ?_, ?_, ?_⟩
    · -- more than a checksum follows the label
      intro hempty
      have hnone := congrArg (fun s : String => s.toList.length) hempty
      simp only [String.toList_ofList, List.length_take, String.toList_empty, List.length_nil] at hnone
      omega
    · intro c hc
      rw [String.toList_ofList] at hc
      exact hascii c (List.mem_of_mem_take hc)
    · rw [← String.toList_inj, Text.after?_eq_some_iff.1 hrest]
      unfold compose
      rw [String.toList_append, String.toList_append, String.toList_ofList, String.toList_ofList,
        hcheck, List.append_assoc, List.take_append_drop]

theorem checksumMatches_iff : checksumMatches secret label = true ↔
    ∃ body : String, body ≠ "" ∧ (∀ c ∈ body.toList, c.toNat < 128) ∧ secret = compose label body := by
  constructor
  · exact exists_composed_of_checksumMatches
  · rintro ⟨body, hne, hascii, rfl⟩
    refine checksumMatches_compose ?_ (Text.isAscii_iff.2 hascii)
    intro hnil
    exact hne (String.toList_inj.1 hnil)

/-! ### On bytes -/

/-- The test of a checksum where lengths and offsets count bytes. There is no answer when a cut falls
within a character or beyond the end. -/
def checksumMatchesBytes? (secret label : String) : Option Bool :=
  match Text.after? label.toList secret.toList with
  | none => some false
  | some rest =>
    let rest := String.ofList rest
    if rest.utf8ByteSize ≤ checksumLength || !Text.isAscii rest.toList then
      some false
    else
      (Text.cutAt? rest (rest.utf8ByteSize - checksumLength)).map fun (body, check) =>
        String.ofList (checksumText body.toList) == check

/-- No cut of the test falls within a character or beyond the end, and the answer is that of the test on
characters. -/
theorem checksumMatchesBytes?_eq (secret label : String) :
    checksumMatchesBytes? secret label = some (checksumMatches secret label) := by
  unfold checksumMatchesBytes? checksumMatches
  cases hrest : Text.after? label.toList secret.toList with
  | none => rfl
  | some rest =>
    dsimp only
    rw [String.toList_ofList]
    cases hascii : Text.isAscii rest with
    | false =>
      rw [Bool.not_false, Bool.or_true, if_pos rfl]
      rfl
    | true =>
      -- an offset in bytes is a number of characters now
      rw [Bool.not_true, Bool.or_false, Bool.true_and, Text.utf8ByteSize_of_isAscii hascii]
      by_cases hlong : checksumLength < rest.length
      · have hshort : ¬ rest.length ≤ checksumLength := Nat.not_le.2 hlong
        rw [decide_eq_true hlong, decide_eq_false hshort, if_neg Bool.false_ne_true,
          Text.cutAt?_of_isAscii hascii (Nat.sub_le _ _), Option.map_some, String.toList_ofList,
          Bool.true_and]
        -- two texts are equal when their characters are
        rw [Option.some_inj, Bool.eq_iff_iff, beq_iff_eq, beq_iff_eq, ← String.toList_inj,
          String.toList_ofList, String.toList_ofList]
      · rw [decide_eq_false hlong, decide_eq_true (Nat.not_lt.1 hlong), if_pos rfl]
        rfl

/-- **The test accepts what can be composed, and nothing else.** A secret passes for a label exactly when
it is composed of the label and a non-empty ASCII body, and this body is the only text, ASCII or not, that
it is composed of. On bytes, every secret and every label have an answer, and it is the same one. -/
theorem checksum_accepts_composed (secret label : String) :
    (checksumMatches secret label = true ↔
      ∃ body : String, body ≠ "" ∧ (∀ c ∈ body.toList, c.toNat < 128) ∧
        secret = compose label body) ∧
    (∀ body other : String, secret = compose label body → secret = compose label other →
      body = other) ∧
    checksumMatchesBytes? secret label = some (checksumMatches secret label) :=
  ⟨checksumMatches_iff, fun _ _ hbody hother => compose_inj (hbody.symm.trans hother),
    checksumMatchesBytes?_eq secret label⟩

/-- A body of one digit behind a label that is not ASCII passes and is the only body; in capitals the
checksum is that of no body; and where eight bytes from the end lie within a character, there is an
answer. -/
theorem checksum_accepts_composed_oneDigit :
    compose "é" "a" = "éac1d04330" ∧ checksumMatches "éac1d04330" "é" = true ∧
      (∀ body, "éac1d04330" = compose "é" body → body = "a") ∧
      (¬ ∃ body : String, body ≠ "" ∧ (∀ c ∈ body.toList, c.toNat < 128) ∧
        "éaC1D04330" = compose "é" body) ∧
      checksumMatchesBytes? "xé1234567" "x" = some false := by
  have hcomposed : compose "é" "a" = "éac1d04330" := by decide +kernel
  have hpasses : checksumMatches "éac1d04330" "é" = true :=
    (checksum_accepts_composed _ _).1.2 ⟨"a", by decide, Text.isAscii_iff.1 (by decide), hcomposed.symm⟩
  have honly : ∀ body, "éac1d04330" = compose "é" body → body = "a" := fun body hbody =>
    (checksum_accepts_composed _ _).2.1 body "a" hbody hcomposed.symm
  have hcapitals : checksumMatches "éaC1D04330" "é" = false := by decide +kernel
  have hnone : ¬ ∃ body : String, body ≠ "" ∧ (∀ c ∈ body.toList, c.toNat < 128) ∧
      "éaC1D04330" = compose "é" body := by
    rw [← (checksum_accepts_composed _ _).1, hcapitals]
    exact Bool.false_ne_true
  have hwithin : checksumMatches "xé1234567" "x" = false := by decide +kernel
  refine ⟨hcomposed, hpasses, honly, hnone, ?_⟩
  rw [(checksum_accepts_composed _ _).2.2, hwithin]

end Secret

end AccessTokens
