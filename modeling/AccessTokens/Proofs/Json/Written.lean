import AccessTokens.Json.Value
import AccessTokens.Proofs.Text.Reader
import Mathlib.Data.List.Basic
import Mathlib.Data.List.Forall2

/-!
# Reading back written JSON

What is written as JSON is read back as it was: quoted texts with any characters (`readText_quoted`),
integers (`readNumber_ofInt`), and objects of such members (`Value.read?_objectText`).

A reader of a value has to see where the value ends, so that its equation `r (text ++ rest) = some (a,
rest)` holds only for some rests. In a written object a value is followed by a comma or by the closing
brace (`EndsMember`), and `ReadsAs` is reading back before any such rest. A quoted text ends by itself,
and its equation has no condition.
-/

namespace AccessTokens.Json

open Text (Reader)

/-! ### Quoted texts -/

/-- A text is taken for one piece of a quoted text and that piece for a character, whatever follows. -/
def ReadsAsChar (cs : List Char) (c : Char) : Prop :=
  ∃ p, (∀ rest ps left, pieces rest = some (ps, left) → pieces (cs ++ rest) = some (p :: ps, left)) ∧
    ∀ ps s, assemble ps = some s → assemble (p :: ps) = some (c :: s)

/-- An escape of one letter is read as the character it stands for. -/
theorem readsAsChar_escaped {e c : Char} (h : escaped? e = some c) (hu : e ≠ 'u') :
    ReadsAsChar ['\\', e] c := by
  refine ⟨.char c, fun rest ps left hrest => ?_, fun ps s hs => congrArg _ hs⟩
  rw [List.cons_append, List.cons_append, List.nil_append, pieces, h, hrest]
  · rfl
  · rintro _ _ _ _ _ rfl
    simp at hu

theorem unitOfDigits?_fixedDigits {n : Nat} (h : n < 0x10000) :
    ∃ a b c d, Text.fixedDigits 16 4 n = [a, b, c, d] ∧ unitOfDigits? a b c d = some n := by
  refine ⟨_, _, _, _, rfl, ?_⟩
  have hd (m : Nat) : Hex.digitValue? (Nat.digitChar (m % 16)) = some (m % 16) :=
    Hex.digitValue?_digitChar (Nat.mod_lt _ (by decide))
  simp only [unitOfDigits?, hd]
  exact congrArg some (by omega)

/-- A control character is read from the escape of its number. No unit of a pair is that small. -/
theorem readsAsChar_numbered {c : Char} (h : c < ' ') :
    ReadsAsChar ('\\' :: 'u' :: Text.fixedDigits 16 4 c.toNat) c := by
  have hlt : c.toNat < 0x20 := h
  obtain ⟨x, y, z, w, htext, hunit⟩ := unitOfDigits?_fixedDigits (n := c.toNat) (by omega)
  rw [htext]
  refine ⟨.unit c.toNat, fun rest ps left hrest => ?_, fun ps s hs => ?_⟩
  · simp only [List.cons_append, List.nil_append]
    rw [pieces, hunit, hrest]
    rfl
  · have hhigh : isHighUnit c.toNat = false := by
      rw [isHighUnit, decide_eq_false (by omega), Bool.false_and]
    have hlow : isLowUnit c.toNat = false := by
      rw [isLowUnit, decide_eq_false (by omega), Bool.false_and]
    rw [assemble.eq_def]
    simp only [hhigh, hlow, hs, Char.ofNat_toNat, Bool.false_eq_true, if_false, Option.map_some]

/-- Any other character is read as it stands. -/
theorem readsAsChar_plain {c : Char} (hquote : c ≠ '"') (hback : c ≠ '\\') (hc : ¬ c < ' ') :
    ReadsAsChar [c] c := by
  refine ⟨.char c, fun rest ps left hrest => ?_, fun ps s hs => congrArg _ hs⟩
  rw [List.cons_append, List.nil_append, pieces, if_neg hc, hrest]
  · rfl
  · exact hquote
  · exact fun _ _ _ _ _ h _ => hback h
  · exact fun _ _ h _ => hback h

/-- Every character is read back from what is written for it: an escape of one letter, the number of a control
character, or the character itself. -/
theorem readsAsChar_quotedChar (c : Char) : ReadsAsChar (quotedChar c) c := by
  rw [quotedChar]
  -- the escapes of one letter, one after another
  iterate 7
    split
    · next h =>
      subst h
      exact readsAsChar_escaped rfl (by decide)
  split
  · next h => exact readsAsChar_numbered h
  · exact readsAsChar_plain ‹_› ‹_› ‹_›

/-- The characters of a quoted text are read back up to its closing quote. What is read are pieces first,
which stand for the characters when they are put together. -/
theorem exists_pieces (cs rest : List Char) :
    ∃ ps, pieces (cs.flatMap quotedChar ++ '"' :: rest) = some (ps, rest) ∧
      assemble ps = some cs := by
  -- along the text: the pieces of the first character come before those of the rest, whatever they are
  induction cs with
  | nil => exact ⟨[], by simp [pieces], by simp [assemble]⟩
  | cons c cs ih =>
    obtain ⟨ps, hps, hcs⟩ := ih
    obtain ⟨p, htaken, hstands⟩ := readsAsChar_quotedChar c
    refine ⟨p :: ps, ?_, hstands ps cs hcs⟩
    rw [List.flatMap_cons, List.append_assoc]
    exact htaken _ _ _ hps

/-- **A quoted text reads back.** -/
theorem readText_quoted (s : String) (rest : List Char) :
    readText (quoted s ++ rest) = some (some s, rest) := by
  obtain ⟨ps, hps, hs⟩ := exists_pieces s.toList rest
  rw [quoted, List.cons_append, List.append_assoc, readText,
    Reader.bind_of_apply (Reader.char_cons _ _), List.singleton_append, Reader.bind_of_apply hps, hs,
    Reader.pure_apply, Option.map_some, String.ofList_toList]

/-! ### Numbers -/

theorem takes_of_mem {cs : List Char} {c : Char} (h : c ∈ cs) (rest : List Char) :
    takes cs (c :: rest) = some (true, rest) := by
  rw [takes, Reader.bind_of_apply (Reader.peek_apply _)]
  simp only [List.head?_cons, if_pos (List.contains_iff_mem.2 h)]
  rw [Reader.bind_of_apply (Reader.char_cons c rest)]
  rfl

theorem takes_of_head {cs rest : List Char} (h : ∀ c ∈ rest.head?, c ∉ cs) :
    takes cs rest = some (false, rest) := by
  rw [takes, Reader.bind_of_apply (Reader.peek_apply _)]
  cases rest with
  | nil => rfl
  | cons c rest =>
    have hc : ¬ cs.contains c = true := fun hmem => h c rfl (List.contains_iff_mem.1 hmem)
    simp only [List.head?_cons, if_neg hc]
    rfl

theorem skipSpaces_of_head {rest : List Char} (h : ∀ c ∈ rest.head?, c ∉ [' ', '\n', '\t', '\r']) :
    skipSpaces rest = some ((), rest) := by
  have hrun : Reader.run (fun c => [' ', '\n', '\t', '\r'].contains c) ([] ++ rest) =
      some ([], rest) :=
    Reader.run_append (by simp) fun c hc => by
      rw [List.contains_eq_mem, decide_eq_false (h c hc)]
  rw [List.nil_append] at hrun
  rw [skipSpaces, Reader.bind_of_apply hrun]
  rfl

theorem someDigits_append {ds rest : List Char} (hne : ds ≠ []) (h : ∀ c ∈ ds, c.isDigit = true)
    (hrest : ∀ c ∈ rest.head?, c.isDigit = false) :
    someDigits (ds ++ rest) = some (ds, rest) := by
  rw [someDigits, Reader.bind_of_apply (Reader.run_append h hrest), if_neg hne]
  rfl

/-- A number whose digits begin with the digit zero is zero. A reader refuses leading zeros, and no other
number is written with one. -/
theorem ofNat_of_head {n : Nat} (h : (Decimal.ofNat n).head? = some '0') :
    Decimal.ofNat n = ['0'] := by
  induction n using Nat.strongRecOn with
  | _ n ih =>
    by_cases hn : n < 10
    · have hsmall : ∀ m < 10, (Decimal.ofNat m).head? = some '0' → Decimal.ofNat m = ['0'] := by
        decide
      exact hsmall n hn h
    · -- the digits before the last one begin with zero as well, and so they are those of zero
      have hmore : Decimal.ofNat n = Decimal.ofNat (n / 10) ++ [Nat.digitChar (n % 10)] :=
        Nat.toDigits_of_base_le (by decide) (by omega)
      rw [hmore, List.head?_append_of_ne_nil _ (Decimal.ofNat_ne_nil _)] at h
      have htenth := congrArg Decimal.value (ih (n / 10) (by omega) h)
      rw [Decimal.value_ofNat] at htenth
      change n / 10 = 0 at htenth
      omega

/-- What may follow the value of a member of an object. A number needs this, since more digits would be read
as more of it. -/
def EndsMember (rest : List Char) : Prop := ∀ c ∈ rest.head?, c = ',' ∨ c = '}'

/-- A number without fraction and exponent is read from its sign and its digits. The conditions on the
digits are those of the reader: there are some, no zero leads them, and they are not zero behind a sign. -/
theorem readNumber_of_digits {cs ds rest : List Char} {negative : Bool}
    (hsign : takes ['-'] cs = some (negative, ds ++ rest)) (hne : ds ≠ [])
    (hds : ∀ c ∈ ds, c.isDigit = true) (hzero : ds.head? = some '0' → ds = ['0'])
    (hneg : (negative && ds == ['0']) = false) (hrest : EndsMember rest) :
    readNumber cs = some
      (.integer (if negative then -(Decimal.value ds : Int) else Decimal.value ds), rest) := by
  -- Behind a member there is neither a digit, nor a point, nor the letter of an exponent. So the digits end
  -- where the number ends, and it is an integer.
  have hdigits : someDigits (ds ++ rest) = some (ds, rest) :=
    someDigits_append hne hds fun c hc => by rcases hrest c hc with rfl | rfl <;> rfl
  have hpoint : takes ['.'] rest = some (false, rest) :=
    takes_of_head fun c hc => by rcases hrest c hc with rfl | rfl <;> decide
  have hexp : takes ['e', 'E'] rest = some (false, rest) :=
    takes_of_head fun c hc => by rcases hrest c hc with rfl | rfl <;> decide
  have hlead : ¬ (ds.head? = some '0' ∧ ds ≠ ['0']) := fun h => h.2 (hzero h.1)
  rw [readNumber, Reader.bind_of_apply hsign, Reader.bind_of_apply hdigits, if_neg hlead]
  change (takes ['.'] >>= _) rest = _
  rw [Reader.bind_of_apply hpoint]
  change (takes ['e', 'E'] >>= _) rest = _
  rw [Reader.bind_of_apply hexp]
  change (if (false || false || negative && ds == ['0']) = true then _ else _ : Reader Value) rest = _
  rw [hneg]
  rfl

/-- A written integer reads back, whatever may follow a member. It has a sign if it is negative, and its
digits have no leading zero. -/
theorem readNumber_ofInt (n : Int) {rest : List Char} (hrest : EndsMember rest) :
    readNumber (Decimal.ofInt n ++ rest) = some (.integer n, rest) := by
  cases n with
  | ofNat n =>
    -- no sign stands where the first digit is
    have hsign : takes ['-'] (Decimal.ofNat n ++ rest) = some (false, Decimal.ofNat n ++ rest) := by
      refine takes_of_head fun c hc => ?_
      rw [List.head?_append_of_ne_nil _ (Decimal.ofNat_ne_nil n)] at hc
      have hdigit := Decimal.isDigit_of_mem_ofNat (List.mem_of_mem_head? hc)
      exact fun hmem => absurd (List.mem_singleton.1 hmem ▸ hdigit) (by decide)
    have hread := readNumber_of_digits hsign (Decimal.ofNat_ne_nil n)
      (fun _ => Decimal.isDigit_of_mem_ofNat) ofNat_of_head rfl hrest
    rw [Decimal.value_ofNat] at hread
    exact hread
  | negSucc n =>
    -- minus zero is no integer, but it is not written
    have hpos : (true && Decimal.ofNat (n + 1) == ['0']) = false := by
      rw [Bool.true_and, beq_eq_false_iff_ne]
      intro h
      have := congrArg Decimal.value h
      rw [Decimal.value_ofNat] at this
      exact absurd this (by change ¬ n + 1 = 0; omega)
    have hread := readNumber_of_digits (takes_of_mem List.mem_cons_self _) (Decimal.ofNat_ne_nil (n + 1))
      (fun _ => Decimal.isDigit_of_mem_ofNat) ofNat_of_head hpos hrest
    rw [Decimal.value_ofNat] at hread
    exact hread

/-! ### Values -/

/-- A text is read as a value wherever it stands as the value of a member. One level of depth is enough, as
no member of a written record is an object or an array. -/
def ReadsAs (cs : List Char) (v : Value) : Prop :=
  ∀ fuel rest, EndsMember rest → readValue (fuel + 1) (cs ++ rest) = some (v, rest)

theorem readsAs_quoted (s : String) : ReadsAs (quoted s) (.text (some s)) := by
  intro fuel rest _
  have hspaces : skipSpaces (quoted s ++ rest) = some ((), quoted s ++ rest) :=
    skipSpaces_of_head (by rintro _ ⟨⟩; decide)
  rw [readValue, Reader.bind_of_apply hspaces, Reader.bind_of_apply (Reader.peek_apply _)]
  change (readText >>= _) (quoted s ++ rest) = _
  rw [Reader.bind_of_apply (readText_quoted s rest)]
  rfl

theorem readsAs_null : ReadsAs nullText .null := by
  intro fuel rest _
  rw [readValue]
  rfl

/-- No other value begins with a sign or a digit. So the reader of values hands such a text on to the reader
of numbers. -/
theorem readValue_of_number {c : Char} (hc : c = '-' ∨ c.isDigit = true) (fuel : Nat)
    (cs : List Char) : readValue (fuel + 1) (c :: cs) = readNumber (c :: cs) := by
  -- The reader looks at the first character for the other kinds of values in turn, and finds none of them.
  have hne {a : Char} (ha : a ≠ '-' ∧ a.isDigit = false) : c ≠ a := by
    rintro rfl
    rcases hc with hc | hc
    · exact ha.1 hc
    · exact absurd (ha.2.symm.trans hc) (by decide)
  have hspaces : skipSpaces (c :: cs) = some ((), c :: cs) := by
    refine skipSpaces_of_head ?_
    rintro _ ⟨⟩
    simp only [List.mem_cons, List.not_mem_nil, or_false, not_or]
    exact ⟨hne (by decide), hne (by decide), hne (by decide), hne (by decide)⟩
  rw [readValue, Reader.bind_of_apply hspaces, Reader.bind_of_apply (Reader.peek_apply _),
    List.head?_cons]
  generalize hx : some c = x
  split
  case h_7 => rfl
  all_goals exact absurd (Option.some.inj hx) (hne (by decide))

theorem readsAs_ofInt (n : Int) : ReadsAs (Decimal.ofInt n) (.integer n) := by
  intro fuel rest hrest
  obtain ⟨c, cs, htext, hc⟩ : ∃ c cs, Decimal.ofInt n = c :: cs ∧ (c = '-' ∨ c.isDigit = true) := by
    cases n with
    | ofNat n =>
      obtain ⟨c, cs, htext⟩ := List.exists_cons_of_ne_nil (Decimal.ofNat_ne_nil n)
      exact ⟨c, cs, htext, .inr (Decimal.isDigit_of_mem_ofNat (htext ▸ List.mem_cons_self))⟩
    | negSucc n => exact ⟨'-', _, rfl, .inl rfl⟩
  rw [← readNumber_ofInt n hrest, htext, List.cons_append]
  exact readValue_of_number hc _ _

/-- A member is read as a key and a value. -/
def MemberReadsAs (m : String × List Char) (x : Option String × Value) : Prop :=
  x.1 = some m.1 ∧ ReadsAs m.2 x.2

/-- The text of one member. It is read as a key, a colon and a value, with no white space between them. -/
theorem readMember_text {m : String × List Char} {x : Option String × Value}
    (h : MemberReadsAs m x) (fuel : Nat) {rest : List Char} (hrest : EndsMember rest) :
    readMember (readValue (fuel + 1)) (quoted m.1 ++ ':' :: m.2 ++ rest) = some (x, rest) := by
  obtain ⟨key, v⟩ := x
  obtain ⟨rfl, hv⟩ := h
  rw [List.append_assoc, List.cons_append, readMember,
    Reader.bind_of_apply (skipSpaces_of_head (by rintro _ ⟨⟩; decide)),
    Reader.bind_of_apply (readText_quoted m.1 _),
    Reader.bind_of_apply (skipSpaces_of_head (by rintro _ ⟨⟩; decide)),
    Reader.bind_of_apply (Reader.char_cons _ _), Reader.bind_of_apply (hv fuel rest hrest)]
  rfl

/-- Members that are written one after another are read one after another. Every member but the last is
followed by a comma, and the last one by the closing brace. Both end a value. -/
theorem itemsUntil_members {ms : List (String × List Char)} {xs : List (Option String × Value)}
    (h : List.Forall₂ MemberReadsAs ms xs) (hne : ms ≠ []) (depth : Nat) (rest : List Char)
    {fuel : Nat} (hfuel : ms.length ≤ fuel) :
    itemsUntil (readMember (readValue (depth + 1))) '}' fuel
      ([','].intercalate (ms.map fun m => quoted m.1 ++ ':' :: m.2) ++ '}' :: rest) =
        some (xs, rest) := by
  -- along the members: each one takes a unit of fuel, and a comma says that there is one more
  induction h generalizing fuel with
  | nil => exact absurd rfl hne
  | @cons m x ms xs hm hms ih =>
    obtain ⟨fuel, rfl⟩ : ∃ n, fuel = n + 1 := Nat.exists_eq_add_of_le' (Nat.le_trans (by simp) hfuel)
    cases ms with
    | nil =>
      -- the last member is followed by the closing brace
      cases hms
      have hends : EndsMember ('}' :: rest) := by rintro _ ⟨⟩; exact .inr rfl
      rw [List.map_singleton, List.intercalate_singleton, itemsUntil,
        Reader.bind_of_apply (readMember_text hm depth hends),
        Reader.bind_of_apply (skipSpaces_of_head (by rintro _ ⟨⟩; decide)),
        Reader.bind_of_apply (takes_of_head (by rintro _ ⟨⟩; decide))]
      rfl
    | cons m' ms =>
      have hends (tail : List Char) : EndsMember (',' :: tail) := by rintro _ ⟨⟩; exact .inl rfl
      have hmore := ih (List.cons_ne_nil _ _) (Nat.le_of_succ_le_succ hfuel)
      rw [List.map_cons, List.intercalate_cons_of_ne_nil (by simp), List.append_assoc,
        List.append_assoc, List.singleton_append, itemsUntil,
        Reader.bind_of_apply (readMember_text hm depth (hends _)),
        Reader.bind_of_apply (skipSpaces_of_head (by rintro _ ⟨⟩; decide)),
        Reader.bind_of_apply (takes_of_mem (by decide) _)]
      change (itemsUntil _ _ fuel >>= _) _ = _
      rw [Reader.bind_of_apply hmore]
      rfl

/-- A text has more characters than members. So its length is enough fuel for reading them. -/
theorem length_le_length_objectText (ms : List (String × List Char)) :
    ms.length ≤ (objectText ms).length := by
  have hmembers : ms.length ≤
      ([','].intercalate (ms.map fun m => quoted m.1 ++ ':' :: m.2)).length := by
    induction ms with
    | nil => exact Nat.zero_le _
    | cons m ms ih =>
      by_cases hms : ms = []
      · subst hms
        simp only [List.map_singleton, List.intercalate_singleton, List.length_append,
          List.length_cons, List.length_nil]
        omega
      · rw [List.map_cons, List.intercalate_cons_of_ne_nil (by simpa using hms)]
        simp only [List.length_append, List.length_cons]
        omega
  simp only [objectText, List.length_cons, List.length_append]
  omega

theorem listUntil_members {ms : List (String × List Char)} {xs : List (Option String × Value)}
    (h : List.Forall₂ MemberReadsAs ms xs) (depth : Nat) {fuel : Nat} (hfuel : ms.length ≤ fuel)
    (rest : List Char) :
    listUntil (readMember (readValue (depth + 1))) '}' fuel
      ([','].intercalate (ms.map fun m => quoted m.1 ++ ':' :: m.2) ++ '}' :: rest) =
        some (xs, rest) := by
  cases ms with
  | nil =>
    cases h
    rw [listUntil, List.map_nil, List.intercalate_nil, List.nil_append,
      Reader.bind_of_apply (skipSpaces_of_head (by rintro _ ⟨⟩; decide)),
      Reader.bind_of_apply (takes_of_mem (by decide) _)]
    rfl
  | cons m ms =>
    have hmembers := itemsUntil_members h (List.cons_ne_nil _ _) depth rest hfuel
    -- the text begins with the quote of the first key
    obtain ⟨tail, htail⟩ : ∃ tail, [','].intercalate
        ((m :: ms).map fun m => quoted m.1 ++ ':' :: m.2) ++ '}' :: rest = '"' :: tail := by
      simp only [List.map_cons, quoted, List.cons_append, List.intercalate_cons_cons_left]
      exact ⟨_, rfl⟩
    rw [htail] at hmembers ⊢
    rw [listUntil, Reader.bind_of_apply (skipSpaces_of_head (by rintro _ ⟨⟩; decide)),
      Reader.bind_of_apply (takes_of_head (by rintro _ ⟨⟩; decide))]
    exact hmembers

/-- **A written object reads back** as the object of its members' values. -/
theorem Value.read?_objectText {ms : List (String × List Char)} {xs : List (Option String × Value)}
    (h : List.Forall₂ MemberReadsAs ms xs) :
    Value.read? (String.ofList (objectText ms)) = some (.object xs) := by
  -- An object takes one level for itself and one for the values in it. The length of the text is fuel enough
  -- for these levels and for the members.
  have hobject (depth : Nat) (hdepth : ms.length ≤ depth + 1) :
      readValue (depth + 2) (objectText ms) = some (.object xs, []) := by
    rw [objectText, readValue, Reader.bind_of_apply (skipSpaces_of_head (by rintro _ ⟨⟩; decide)),
      Reader.bind_of_apply (Reader.peek_apply _)]
    change (Reader.char '{' >>= _) _ = _
    rw [Reader.bind_of_apply (Reader.char_cons _ _),
      Reader.bind_of_apply (listUntil_members h depth hdepth [])]
    rfl
  have hlength := length_le_length_objectText ms
  obtain ⟨depth, hdepth⟩ : ∃ depth, (objectText ms).length = depth + 1 :=
    Nat.exists_eq_add_of_le' (Nat.succ_le_succ (Nat.zero_le _))
  refine Reader.whole?_of_apply ?_
  rw [String.length_ofList, String.toList_ofList, hdepth,
    Reader.bind_of_apply (hobject depth (hdepth ▸ hlength))]
  rfl

end AccessTokens.Json
