import AccessTokens.Hash.Crc32c

/-!
# What the register tells apart

The one-bit step of the register can be undone (`shift_injective`), and it goes along with exclusive or
(`shift_xor`); so does any number of steps. Two things follow.

* **Differences stay.** Two registers that differ still differ after the same bytes (`register_inj`).
* **A register of bytes is kept whole.** Up to four bytes are as many as the register has bits for. Taking
  them in one after the other comes to adding them all at once, as one `word`, and dividing by all their
  bits at the end (`register_eq_shifts`): the steps for the first bytes only move the later ones down to
  where they would have been added (`shifts_shiftLeft`). The word, and so the bytes, can be read off the
  result (`window_inj`).

Main statement: two lists of bytes of the same length that differ, and only in four bytes in a row, have
different checksums (`checksum_inj_of_window`), however long they are and wherever the four bytes stand.
-/

namespace AccessTokens.Crc32c

/-! ### Steps of many bits -/

theorem shift_xor (r s : BitVec 32) : shift (r ^^^ s) = shift r ^^^ shift s := by
  unfold shift
  rw [BitVec.getLsbD_xor, BitVec.ushiftRight_xor_distrib]
  cases r.getLsbD 0 with
  | false =>
    cases s.getLsbD 0 with
    | false => rfl
    | true => exact BitVec.xor_assoc _ _ _
  | true =>
    cases s.getLsbD 0 with
    | false =>
      show (r >>> 1) ^^^ (s >>> 1) ^^^ polynomial = (r >>> 1) ^^^ polynomial ^^^ (s >>> 1)
      ac_rfl
    | true =>
      -- the polynomial is added on both sides, and is gone again
      show (r >>> 1) ^^^ (s >>> 1) = ((r >>> 1) ^^^ polynomial) ^^^ ((s >>> 1) ^^^ polynomial)
      calc (r >>> 1) ^^^ (s >>> 1) = (r >>> 1) ^^^ (s >>> 1) ^^^ (polynomial ^^^ polynomial) := by
            rw [BitVec.xor_self, BitVec.xor_zero]
        _ = ((r >>> 1) ^^^ polynomial) ^^^ ((s >>> 1) ^^^ polynomial) := by ac_rfl

theorem shifts_succ (n : Nat) (r : BitVec 32) : shifts (n + 1) r = shift (shifts n r) := rfl

theorem shifts_add (m n : Nat) (r : BitVec 32) : shifts (m + n) r = shifts m (shifts n r) := by
  induction m with
  | zero => rw [Nat.zero_add]; rfl
  | succ m ih => rw [Nat.succ_add, shifts_succ, shifts_succ, ih]

theorem shifts_xor (n : Nat) (r s : BitVec 32) : shifts n (r ^^^ s) = shifts n r ^^^ shifts n s := by
  induction n with
  | zero => rfl
  | succ n ih => rw [shifts_succ, shifts_succ, shifts_succ, ih, shift_xor]

theorem shifts_inj {n : Nat} {r s : BitVec 32} (h : shifts n r = shifts n s) : r = s := by
  induction n with
  | zero => exact h
  | succ n ih => exact ih (shift_injective h)

/-- A step moves a register down whose lowest bit is clear. The polynomial is not added then, and what was
moved up by one place more comes down by one. -/
theorem shift_shiftLeft {n : Nat} {w : BitVec 32} (hclear : w.getLsbD (31 - n) = false) :
    shift (w <<< (n + 1)) = w <<< n := by
  have hlow : (w <<< (n + 1)).getLsbD 0 = false := by simp
  unfold shift
  rw [hlow, if_neg Bool.false_ne_true]
  apply BitVec.eq_of_getLsbD_eq
  intro i hi
  rw [BitVec.getLsbD_ushiftRight, BitVec.getLsbD_shiftLeft, BitVec.getLsbD_shiftLeft]
  by_cases htop : i = 31
  · -- nothing comes down from above, and the top bit was clear
    subst htop
    simp [hclear]
  · have hbelow : 1 + i < 32 := by omega
    have hplace : 1 + i - (n + 1) = i - n := by omega
    have hlower : decide (1 + i < n + 1) = decide (i < n) := by
      rw [decide_eq_decide]
      omega
    rw [hplace, hlower, decide_eq_true hbelow, decide_eq_true hi]

/-- What has been moved up is moved down again, if nothing was lost at the top. Each step finds the lowest
bit clear, so the polynomial is never added. -/
theorem shifts_shiftLeft {n : Nat} (hn : n ≤ 32) {w : BitVec 32}
    (hw : ∀ i, 32 - n ≤ i → w.getLsbD i = false) : shifts n (w <<< n) = w := by
  induction n with
  | zero => exact BitVec.shiftLeft_zero w
  | succ n ih =>
    have hfirst : shift (w <<< (n + 1)) = w <<< n := shift_shiftLeft (hw _ (by omega))
    calc shifts (n + 1) (w <<< (n + 1)) = shifts n (shift (w <<< (n + 1))) := shifts_add n 1 _
      _ = shifts n (w <<< n) := by rw [hfirst]
      _ = w := ih (by omega) fun i hi => hw i (by omega)

/-! ### The register over bytes -/

theorem step_inj {b : UInt8} {r s : BitVec 32} (h : step r b = step s b) : r = s :=
  (BitVec.xor_left_inj _).1 (shifts_inj h)

/-- Registers that differ still differ after the same bytes. -/
theorem register_inj {bs : List UInt8} {r s : BitVec 32} (h : register bs r = register bs s) : r = s := by
  induction bs generalizing r s with
  | nil => exact h
  | cons b bs ih => exact step_inj (ih h)

/-- Bytes side by side in one word, the first one lowest. -/
def word : List UInt8 → BitVec 32
  | [] => 0#32
  | b :: bs => b.toBitVec.setWidth 32 ^^^ word bs <<< 8

theorem word_cons (b : UInt8) (bs : List UInt8) :
    word (b :: bs) = b.toBitVec.setWidth 32 ^^^ word bs <<< 8 := rfl

/-- The bits above the last byte of a word are clear. They are the room into which more bytes could go. -/
theorem getLsbD_word {bs : List UInt8} {i : Nat} (hi : 8 * bs.length ≤ i) :
    (word bs).getLsbD i = false := by
  induction bs generalizing i with
  | nil => exact BitVec.getLsbD_zero
  | cons b bs ih =>
    rw [List.length_cons] at hi
    have hbyte : b.toBitVec.getLsbD i = false := BitVec.getLsbD_of_ge _ _ (by omega)
    have hrest : (word bs).getLsbD (i - 8) = false := ih (by omega)
    rw [word_cons, BitVec.getLsbD_xor, BitVec.getLsbD_setWidth, BitVec.getLsbD_shiftLeft, hbyte, hrest]
    simp

theorem setWidth_word (b : UInt8) (bs : List UInt8) : (word (b :: bs)).setWidth 8 = b.toBitVec := by
  apply BitVec.eq_of_getLsbD_eq
  intro i hi
  rw [word_cons]
  simp [hi]

theorem word_ushiftRight (b : UInt8) {bs : List UInt8} (h : bs.length ≤ 3) :
    word (b :: bs) >>> 8 = word bs := by
  apply BitVec.eq_of_getLsbD_eq
  intro i hi
  have hbyte : b.toBitVec.getLsbD (8 + i) = false := BitVec.getLsbD_of_ge _ _ (by omega)
  rw [word_cons, BitVec.getLsbD_ushiftRight, BitVec.getLsbD_xor, BitVec.getLsbD_setWidth,
    BitVec.getLsbD_shiftLeft, hbyte, Nat.add_sub_cancel_left]
  by_cases hroom : 8 + i < 32
  · simp [hroom]
  · -- the highest byte is clear, since there are three bytes at most
    rw [getLsbD_word (i := i) (by omega)]
    simp

/-- Four bytes have room in a word. So a word tells which bytes went into it, if it is known how many they
are. -/
theorem word_inj {xs ys : List UInt8} (hlength : xs.length = ys.length) (hxs : xs.length ≤ 4)
    (h : word xs = word ys) : xs = ys := by
  -- The first byte is the lowest eight bits, and the word of the others is what is above.
  induction xs generalizing ys with
  | nil => exact (List.length_eq_zero_iff.1 hlength.symm).symm
  | cons x xs ih =>
    cases ys with
    | nil => cases hlength
    | cons y ys =>
      have hlengths : xs.length = ys.length := Nat.succ.inj hlength
      have hthree : xs.length ≤ 3 := Nat.le_of_succ_le_succ hxs
      have hhead : x.toBitVec = y.toBitVec := by
        rw [← setWidth_word x xs, h, setWidth_word]
      have htail : word xs = word ys := by
        rw [← word_ushiftRight x hthree, h, word_ushiftRight y (hlengths ▸ hthree)]
      rw [UInt8.toBitVec_inj.1 hhead, ih hlengths (Nat.le_succ_of_le hthree) htail]

/-- **Taking in up to four bytes is adding them at once**, and dividing by all their bits afterwards. -/
theorem register_eq_shifts {bs : List UInt8} (h : bs.length ≤ 4) (r : BitVec 32) :
    register bs r = shifts (8 * bs.length) (r ^^^ word bs) := by
  -- Along the bytes, for every register: after the first byte the register is another one.
  induction bs generalizing r with
  | nil => exact (BitVec.xor_zero (x := r)).symm
  | cons b bs ih =>
    have hthree : bs.length ≤ 3 := Nat.le_of_succ_le_succ h
    have hroom : shifts 8 (word bs <<< 8) = word bs := by
      refine shifts_shiftLeft (by decide) fun i hi => getLsbD_word ?_
      omega
    have hbits : 8 * (b :: bs).length = 8 * bs.length + 8 := by
      rw [List.length_cons]
      omega
    -- the eight steps for the first byte move the others to where they are added
    have hstep : step r b ^^^ word bs = shifts 8 (r ^^^ word (b :: bs)) := by
      calc step r b ^^^ word bs
          = shifts 8 (r ^^^ b.toBitVec.setWidth 32) ^^^ shifts 8 (word bs <<< 8) := by
            rw [hroom]
            rfl
        _ = shifts 8 (r ^^^ b.toBitVec.setWidth 32 ^^^ word bs <<< 8) := (shifts_xor 8 _ _).symm
        _ = shifts 8 (r ^^^ word (b :: bs)) := by
            rw [BitVec.xor_assoc]
            rfl
    calc register (b :: bs) r = register bs (step r b) := rfl
      _ = shifts (8 * bs.length) (step r b ^^^ word bs) := ih (Nat.le_succ_of_le hthree) _
      _ = shifts (8 * (b :: bs).length) (r ^^^ word (b :: bs)) := by
          rw [hstep, hbits, shifts_add]

theorem window_inj {xs ys : List UInt8} (hlength : xs.length = ys.length) (hxs : xs.length ≤ 4)
    {r : BitVec 32} (h : register xs r = register ys r) : xs = ys := by
  rw [register_eq_shifts hxs, register_eq_shifts (hlength ▸ hxs), hlength] at h
  exact word_inj hlength hxs ((BitVec.xor_right_inj r).1 (shifts_inj h))

/-- **Four bytes in a row are told apart.** Behind the same bytes and before the same bytes, only one
choice of up to four bytes gives a checksum. -/
theorem checksum_inj_of_window {before old new after : List UInt8} (hlength : old.length = new.length)
    (hold : old.length ≤ 4)
    (h : checksum (before ++ old ++ after) = checksum (before ++ new ++ after)) : old = new := by
  have hregister : register (before ++ old ++ after) (~~~ 0#32) =
      register (before ++ new ++ after) (~~~ 0#32) := BitVec.not_inj.1 h
  rw [register_append, register_append, register_append, register_append] at hregister
  -- what comes behind the window does not hide the difference
  exact window_inj hlength hold (register_inj hregister)

end AccessTokens.Crc32c
