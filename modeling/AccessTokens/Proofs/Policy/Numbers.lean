import AccessTokens.Proofs.Policy.Overlay
import AccessTokens.Proofs.Text.Cutting
import Mathlib.Algebra.Group.Nat.Defs
import Mathlib.Data.List.Induction

/-!
# Numbers in variables

Two variables are read as numbers. What a text has to be for that is said without reading it
(`Variables.Says`): between blanks, at most one plus sign and then digits whose value is below 2⁶⁴. The value
of some digits is the number that is written with them after any zeros (`Decimal.exists_zeros`), so a text
says a number exactly when it is that number as it is written, with blanks, a sign and zeros before it
(`Variables.says_iff_written`).

An overlay takes the number, or else it ends with the error of the variable (`Policy.readsNumber`). For this
it is enough that the variables before it are accepted, since a variable behind it has no error of its name
(`Policy.overlay_of_accepted_upTo`).
-/

namespace AccessTokens

namespace Decimal

theorem exists_digitChar {c : Char} (h : c.isDigit = true) : ∃ d < 10, c = Nat.digitChar d := by
  obtain ⟨hleast, hmost⟩ := Char.isDigit_iff_toNat.1 h
  -- the code points 48 to 57 are the digits in their order
  have hchar : ∀ n < 58, 48 ≤ n → Char.ofNat n = Nat.digitChar (n - 48) := by decide
  change 48 ≤ c.toNat at hleast
  change c.toNat ≤ 57 at hmost
  refine ⟨c.toNat - 48, by omega, ?_⟩
  rw [← hchar c.toNat (by omega) hleast, Char.ofNat_toNat]

/-- Digits are some zeros and then the number that they stand for, as it is written. For the number zero the
last digit is the number, and all digits before it are zeros. -/
theorem exists_zeros {ds : List Char} (hne : ds ≠ []) (hd : ∀ c ∈ ds, c.isDigit = true) :
    ∃ zeros, ds = List.replicate zeros '0' ++ ofNat (value ds) := by
  -- along the digits from the first to the last
  induction ds using List.reverseRecOn with
  | nil => exact absurd rfl hne
  | append_singleton ds c ih =>
    obtain ⟨d, hd10, rfl⟩ := exists_digitChar (hd c (by simp))
    have hlast : ofNat d = [Nat.digitChar d] := Nat.toDigits_of_lt_base hd10
    rw [value_append_digitChar ds hd10]
    by_cases hnil : ds = []
    · subst hnil
      exact ⟨0, hlast.symm.trans (congrArg ofNat (Nat.zero_add d).symm)⟩
    · obtain ⟨zeros, hzeros⟩ := ih hnil fun c hc => hd c (List.mem_append_left _ hc)
      rcases Nat.eq_zero_or_pos (value ds) with hvalue | hvalue
      · -- so far there were zeros only, and they count as zeros before the last digit
        refine ⟨zeros + 1, ?_⟩
        rw [hvalue, Nat.mul_zero, Nat.zero_add, hlast, List.replicate_succ', hzeros, hvalue]
        rfl
      · refine ⟨zeros, ?_⟩
        -- the number begins before the last digit, and the digit is written behind it
        have hnext : ofNat (value ds) ++ [Nat.digitChar d] = ofNat (10 * value ds + d) := by
          rw [← hlast]
          exact Nat.toDigits_append_toDigits (by decide) hvalue hd10
        rw [← hnext, ← List.append_assoc, ← hzeros]

/-- Digits that stand for a number: at least one, and all of them ASCII digits. -/
structure StandsFor (digits : List Char) (n : Nat) : Prop where
  nonempty : digits ≠ []
  isDigit : ∀ c ∈ digits, '0' ≤ c ∧ c ≤ '9'
  value_eq : value digits = n

variable {n : Nat}

theorem isDigit_iff {c : Char} : c.isDigit = true ↔ '0' ≤ c ∧ c ≤ '9' := by
  unfold Char.isDigit
  rw [Bool.and_eq_true, decide_eq_true_eq, decide_eq_true_eq, Char.le_def, Char.le_def]

theorem all_isDigit_iff {ds : List Char} :
    ds.all Char.isDigit = true ↔ ∀ c ∈ ds, '0' ≤ c ∧ c ≤ '9' := by
  simp only [List.all_eq_true, isDigit_iff]

/-- What is read of the digits behind a sign: their value, if they are digits and it fits into 64 bits. -/
theorem readDigits_eq_some_iff {ds : List Char} :
    (if ds ≠ [] ∧ ds.all Char.isDigit ∧ value ds < UInt64.size then some (value ds) else none) = some n ↔
      n < 2 ^ 64 ∧ StandsFor ds n := by
  rw [Option.ite_none_right_eq_some, Option.some_inj, all_isDigit_iff]
  constructor
  · rintro ⟨⟨hne, hdigit, hlt⟩, rfl⟩
    exact ⟨hlt, hne, hdigit, rfl⟩
  · rintro ⟨hlt, hne, hdigit, rfl⟩
    exact ⟨⟨hne, hdigit, hlt⟩, rfl⟩

/-- A number is read when there is at most one plus sign and then digits that stand for it. A sign is not a
digit, so there is only one way to cut the text. -/
theorem unsigned64?_eq_some_iff {cs : List Char} : unsigned64? cs = some n ↔
    n < 2 ^ 64 ∧ ∃ sign ∈ [[], ['+']], ∃ digits, sign ++ digits = cs ∧ StandsFor digits n := by
  have hplus : ¬ ('0' ≤ '+' ∧ '+' ≤ '9') := by decide
  unfold unsigned64?
  dsimp only
  rw [readDigits_eq_some_iff]
  refine and_congr_right fun _ => ?_
  by_cases hsign : cs.head? = some '+'
  · obtain ⟨ds, rfl⟩ := List.head?_eq_some_iff.1 hsign
    rw [if_pos hsign, List.tail_cons]
    constructor
    · intro h
      exact ⟨['+'], by decide, ds, rfl, h⟩
    · rintro ⟨sign, hmem, digits, htext, h⟩
      rcases List.mem_pair.1 hmem with rfl | rfl
      · -- a sign is no digit
        rw [List.nil_append] at htext
        subst htext
        exact absurd (h.isDigit '+' List.mem_cons_self) hplus
      · obtain rfl : digits = ds := (List.cons.inj htext).2
        exact h
  · rw [if_neg hsign]
    constructor
    · intro h
      exact ⟨[], by decide, cs, rfl, h⟩
    · rintro ⟨sign, hmem, digits, rfl, h⟩
      rcases List.mem_pair.1 hmem with rfl | rfl
      · exact h
      · exact absurd rfl hsign

end Decimal

namespace Variables

/-! ### What a text says -/

/-- A text says a number: between blanks there is at most one plus sign, and then there are digits that stand
for the number. It is below 2⁶⁴. -/
def Says (text : String) (n : Nat) : Prop :=
  n < 2 ^ 64 ∧ ∃ sign ∈ [[], ['+']], ∃ digits, Text.IsTrimmed text.toList (sign ++ digits) ∧
    Decimal.StandsFor digits n

variable {text : String} {n : Nat}

theorem number?_eq_some_iff : number? text = some n ↔ Says text n := by
  unfold number? Says
  rw [Decimal.unsigned64?_eq_some_iff]
  simp only [Text.isTrimmed_iff]

theorem number?_eq_none_iff : number? text = none ↔ ¬ ∃ n, Says text n := by
  simp only [← number?_eq_some_iff, Option.eq_none_iff_forall_ne_some, not_exists, ne_eq]

/-- A text says a number when it is that number as it is written, between blanks and after a plus sign and
zeros, if there are any. -/
theorem says_iff_written : Says text n ↔ n < 2 ^ 64 ∧ ∃ sign ∈ [[], ['+']], ∃ zeros,
    Text.IsTrimmed text.toList (sign ++ (List.replicate zeros '0' ++ Decimal.ofNat n)) := by
  refine and_congr_right fun _ => exists_congr fun sign => and_congr_right fun _ => ?_
  constructor
  · rintro ⟨digits, htext, h⟩
    -- the digits are zeros and then a number, and by its value this is the number that was read
    obtain ⟨zeros, hzeros⟩ := Decimal.exists_zeros h.nonempty fun c hc =>
      Decimal.isDigit_iff.2 (h.isDigit c hc)
    rw [h.value_eq] at hzeros
    exact ⟨zeros, hzeros ▸ htext⟩
  · rintro ⟨zeros, htext⟩
    refine ⟨_, htext, ?_, ?_, ?_⟩
    · intro hnil
      exact Decimal.ofNat_ne_nil n (List.append_eq_nil_iff.1 hnil).2
    · intro c hc
      rcases List.mem_append.1 hc with hc | hc
      · obtain rfl := List.eq_of_mem_replicate hc
        decide
      · exact Decimal.isDigit_iff.1 (Decimal.isDigit_of_mem_ofNat hc)
    · rw [Decimal.value_zeros_append, Decimal.value_ofNat]

/-! ### Variables that are read as numbers -/

/-- The variables whose texts are read as numbers. They differ in the field that is set, not in
the reading. -/
def numeric : List String := [tokenLength, expireSeconds]

variable {env : Variables} {name : String} {e : PolicyError}

/-- A numeric variable is refused when its text does not say a number, and with its own error only. The
error holds the text as it was set, with the blanks around it. -/
theorem refuses_iff_of_numeric (hname : name ∈ numeric) : env.Refuses name e ↔
    ∃ text, env name = some text ∧ (¬ ∃ n, Says text n) ∧ e = .invalidVariable name text := by
  simp only [← number?_eq_none_iff]
  constructor
  · rintro (⟨hset, hread⟩ | ⟨hset, hread⟩ | ⟨hset, hread⟩)
    · exact ⟨_, hset, hread, rfl⟩
    · exact ⟨_, hset, hread, rfl⟩
    · exact absurd hname (by decide)
  · rintro ⟨text, hset, hread, rfl⟩
    rcases List.mem_pair.1 hname with rfl | rfl
    · exact .length hset hread
    · exact .lifetime hset hread

/-- The prefix and the delimiter are taken as they stand. -/
theorem Refuses.mem (h : env.Refuses name e) : name ∈ [tokenLength, expireSeconds, signingMethod] := by
  cases h <;> decide

/-- An error names the variable that was refused. -/
theorem Refuses.name_eq {other value : String} (h : env.Refuses name (.invalidVariable other value)) :
    name = other := by
  cases h <;> rfl

end Variables

namespace Policy

open Variables (Says)

variable {env : Variables} {p : Policy} {name : String}

/-- When the variables up to some place are accepted, their values are taken, and the error, if there is
one, is of a variable behind that place. -/
theorem overlay_of_accepted_upTo (front back : List String)
    (horder : Variables.inOrder = front ++ back) (hfront : ∀ other ∈ front, env.Accepts other)
    (p : Policy) : ∃ taken key error, front ⊆ taken ∧
      p.overlay env = ({ p.withValues (env.only taken) with signingKey := key }, error) ∧
      ∀ e, error = some e → ∃ other ∈ back, env.Refuses other e := by
  -- Either nothing is refused and the whole overlay is taken, or the first refused variable is behind the
  -- place, and what was taken before it includes what was to be taken.
  rcases env.accepts_or_first_refused back with
    hback | ⟨before, other, after, e, rfl, hbefore, hrefused⟩
  · have haccepted : ∀ other ∈ Variables.inOrder, env.Accepts other := by
      rw [horder, List.forall_mem_append]
      exact ⟨hfront, hback⟩
    refine ⟨Variables.inOrder, env.keyOr (p.withValues env).signingMethod p.signingKey, none, ?_, ?_, ?_⟩
    · rw [horder]
      exact List.subset_append_left front back
    · rw [withValues_only_inOrder]
      exact overlay_of_accepted haccepted p
    · intro e h
      cases h
  · have hall : ∀ other ∈ front ++ before, env.Accepts other :=
      List.forall_mem_append.2 ⟨hfront, hbefore⟩
    rw [← List.append_assoc] at horder
    refine ⟨front ++ before, p.signingKey, some e, List.subset_append_left front before,
      overlay_of_refused horder hall hrefused p, ?_⟩
    intro e' h
    cases h
    exact ⟨other, List.mem_append_right _ List.mem_cons_self, hrefused⟩

/-- An overlay reads the text of a variable as a number. When the text says one, the field has its value and
there is no error of the variable. When it says none, this error with the text as it stands is the outcome,
and `left` is what is left. -/
def ReadsNumber {α : Type} (env : Variables) (p : Policy) (name : String) (field : Policy → α)
    (ofNumber : Nat → α) (left : Policy) : Prop :=
  ∀ text, env name = some text →
    ((∃ n, Says text n) ↔ ∀ value, (p.overlay env).2 ≠ some (.invalidVariable name value)) ∧
    (∀ n, Says text n → field (p.overlay env).1 = ofNumber n) ∧
    ((¬ ∃ n, Says text n) → p.overlay env = (left, some (.invalidVariable name text)))

/-- A numeric variable is read as a number when the variables before it are accepted. If one of these were
refused, the overlay would not come to it. What is behind it may still be refused, and then the number stays
taken. -/
theorem readsNumber {α : Type} {field : Policy → α} {ofNumber : Nat → α} (front : List String)
    {back : List String} (horder : Variables.inOrder = front ++ name :: back)
    (hname : name ∈ Variables.numeric) (hback : name ∉ back) (hfront : ∀ other ∈ front, env.Accepts other)
    (hfield : ∀ taken key, name ∈ taken →
      field { p.withValues (env.only taken) with signingKey := key } =
        env.valueOr name (fun text => (Variables.number? text).map ofNumber) (field p)) :
    ReadsNumber env p name field ofNumber (p.withValues (env.only front)) := by
  intro text hset
  by_cases hsays : ∃ n, Says text n
  · -- the variable is accepted, and a later one has an error of its own name
    have haccepted : env.Accepts name := by
      intro e hrefused
      obtain ⟨text', hset', hnot, -⟩ := (Variables.refuses_iff_of_numeric hname).1 hrefused
      rw [hset] at hset'
      cases hset'
      exact hnot hsays
    obtain ⟨taken, key, error, htaken, hoverlay, herror⟩ :=
      overlay_of_accepted_upTo (front ++ [name]) back (by rw [horder]; simp)
        (List.forall_mem_append.2 ⟨hfront, List.forall_mem_singleton.2 haccepted⟩) p
    have hmem : name ∈ taken := htaken (List.mem_append_right _ (List.mem_singleton_self _))
    refine ⟨⟨fun _ value h => ?_, fun _ => hsays⟩, ?_, fun h => absurd hsays h⟩
    · rw [hoverlay] at h
      obtain ⟨other, hother, hrefused⟩ := herror _ h
      exact hback (hrefused.name_eq ▸ hother)
    · intro n hn
      have hread : (Variables.number? text).map ofNumber = some (ofNumber n) := by
        rw [Variables.number?_eq_some_iff.2 hn, Option.map_some]
      rw [hoverlay, hfield taken key hmem]
      exact Variables.valueOr_of_read hset hread
  · have hrefused : p.overlay env = (p.withValues (env.only front), some (.invalidVariable name text)) :=
      overlay_of_refused horder hfront
        ((Variables.refuses_iff_of_numeric hname).2 ⟨text, hset, hsays, rfl⟩) p
    refine ⟨⟨fun h => absurd h hsays, fun h => ?_⟩, fun n hn => absurd ⟨n, hn⟩ hsays, fun _ => hrefused⟩
    exact absurd (by rw [hrefused]) (h text)

/-- **Numbers in variables are read exactly.** The text of the length, and that of the lifetime when the one
of the length says a number or is not set, are taken when they say a number, whichever it is, and then the
length is this number and the lifetime has this number of seconds and nothing beyond them. A text that says
none is refused with the name of its variable and as it stands, and nothing behind it is looked at.

A text says a number below 2⁶⁴ exactly when it is that number as it is written, behind any zeros and at most
one plus sign, and between blanks. -/
theorem numbers_are_exact (env : Variables) (p : Policy) :
    ReadsNumber env p Variables.tokenLength (·.tokenLength) (fun n => n) p ∧
    ((∀ length, env Variables.tokenLength = some length → ∃ n, Says length n) →
      ReadsNumber env p Variables.expireSeconds (·.expireAfter) .ofSeconds
        (p.withValues (env.only [Variables.tokenLength, Variables.tokenPrefix]))) ∧
    (∀ text n, Says text n ↔ n < 2 ^ 64 ∧ ∃ sign ∈ [[], ['+']], ∃ zeros,
      Text.IsTrimmed text.toList (sign ++ (List.replicate zeros '0' ++ Decimal.ofNat n))) := by
  -- The length is the first variable. Before the lifetime come the length, which has to be accepted for it,
  -- and the prefix, which always is.
  refine ⟨?_, ?_, fun text n => Variables.says_iff_written⟩
  · refine readsNumber [] rfl (by decide) (by decide) (List.forall_mem_nil _) ?_
    intro taken key hmem
    simp only [Option.map_id_fun', id_eq]
    exact Variables.valueOr_only_of_mem hmem
  · intro hlength
    refine readsNumber [Variables.tokenLength, Variables.tokenPrefix] rfl (by decide) (by decide) ?_
      fun taken key hmem => Variables.valueOr_only_of_mem hmem
    intro other hother e hrefused
    rcases List.mem_pair.1 hother with rfl | rfl
    · obtain ⟨text, hset, hnot, -⟩ := (Variables.refuses_iff_of_numeric (by decide)).1 hrefused
      exact hnot (hlength text hset)
    · -- a prefix is never refused
      exact absurd hrefused.mem (by decide)

/-- The largest number, behind zeros and between blanks, is taken. The next one is refused, although the
length before it is fine. -/
theorem numbers_are_exact_largest :
    let length := " +0048\t"
    let largest := "\u3000 00018446744073709551615"
    let next := "18446744073709551616"
    let env (lifetime : String) : Variables := fun name =>
      if name = Variables.tokenLength then some length
      else if name = Variables.expireSeconds then some lifetime
      else none
    (∃ n, Says length n) ∧
    (overlay (env largest) {}).1.tokenLength = 48 ∧
    (overlay (env largest) {}).1.expireAfter = .ofSeconds 18446744073709551615 ∧
    (overlay (env next) {}).2 = some (.invalidVariable Variables.expireSeconds next) := by
  intro length largest next env
  have hlength : Says length 48 := Variables.number?_eq_some_iff.1 (by decide +kernel)
  have hlargest : Says largest 18446744073709551615 :=
    Variables.number?_eq_some_iff.1 (by decide +kernel)
  have hnext : ¬ ∃ n, Says next n := Variables.number?_eq_none_iff.1 (by decide +kernel)
  have hset (lifetime : String) :
      ∀ text, env lifetime Variables.tokenLength = some text → ∃ n, Says text n := by
    intro text h
    cases h
    exact ⟨48, hlength⟩
  obtain ⟨htaken, hlifetime, -⟩ := numbers_are_exact (env largest) {}
  obtain ⟨-, hrefused, -⟩ := numbers_are_exact (env next) {}
  refine ⟨⟨48, hlength⟩, (htaken length rfl).2.1 48 hlength,
    (hlifetime (hset largest) largest rfl).2.1 _ hlargest, ?_⟩
  rw [(hrefused (hset next) next rfl).2.2 hnext]

end Policy

end AccessTokens
