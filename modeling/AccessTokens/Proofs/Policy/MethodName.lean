import AccessTokens.Policy.Variables
import AccessTokens.Proofs.Text.UpperCase

/-!
# The spellings of a signing method

A text names a signing method when its upper case is the name. Going back from the name takes three facts
about the whole mapping of upper cases: which characters go over into `H`, `R` and `S`. Some of them have an
upper case that is longer than one letter, and what is left of it does not fit the name. The digits have no
other origin than themselves.
-/

namespace AccessTokens

/-! ### The letters of the names -/

namespace Text

theorem origins_H : origins 'H' = [('H', []), ('h', []), ('\u1e96', ['\u0331'])] := by decide +kernel

theorem origins_R : origins 'R' = [('R', []), ('r', [])] := by decide +kernel

theorem origins_S : origins 'S' =
    [('S', []), ('s', []), ('\u00df', ['S']), ('\u017f', []), ('\ufb05', ['T']), ('\ufb06', ['T'])] := by
  decide +kernel

theorem origins_digits : ∀ u ∈ ['2', '5', '6'], origins u = [(u, [])] := by
  simp only [List.forall_mem_cons, List.not_mem_nil, false_imp_iff, implies_true, and_true]
  decide +kernel

/-- Behind the first letter the names are the same. So going back from there is done once for both methods:
an S with its three origins, and digits that come from themselves only. -/
theorem of_upperCaseText_tail {cs : List Char} (h : upperCaseText cs = ['S', '2', '5', '6']) :
    ∃ second ∈ ['s', 'S', '\u017f'], cs = [second, '2', '5', '6'] := by
  -- A longer upper case that begins with S goes on with S or T, and here a digit follows. So the S comes
  -- from a character that becomes this one letter.
  have hlonger : ∀ origin ∈ origins 'S', origin.2.head? ≠ some '2' := by
    rw [origins_S]
    decide
  obtain ⟨second, cs', hmem, rfl, hrest⟩ := exists_lone_origin h hlonger
  rw [eq_of_upperCaseText origins_digits hrest]
  refine ⟨second, ?_, rfl⟩
  rw [origins_S] at hmem
  simpa [or_comm, or_left_comm] using hmem

end Text

/-! ### The spellings -/

namespace SigningMethod

/-- The letters that the name of a method may begin with. -/
def initials : SigningMethod → List Char
  | .hs256 => ['h', 'H']
  | .rs256 => ['r', 'R']

/-- A text is a spelling of the name of a method: it has five characters, of which the first is the initial
in either case, the second an s in either case or a long one, and the others are the digits. -/
def IsSpelled (method : SigningMethod) (text : String) : Prop :=
  ∃ initial ∈ method.initials, ∃ second ∈ ['s', 'S', '\u017f'],
    text.toList = [initial, second, '2', '5', '6']

variable {method : SigningMethod} {text : String}

/-- The upper case of the initials, with which the name begins. -/
def capital : SigningMethod → Char
  | .hs256 => 'H'
  | .rs256 => 'R'

theorem toList_name (method : SigningMethod) :
    method.name.toList = [method.capital, 'S', '2', '5', '6'] := by
  cases method <;> rfl

/-- A longer upper case that begins with a capital does not go on with an S. -/
theorem head?_origins_capital (method : SigningMethod) :
    ∀ origin ∈ Text.origins method.capital, origin.2.head? ≠ some 'S' := by
  cases method <;> decide +kernel

theorem mem_initials_iff {c : Char} :
    (c, []) ∈ Text.origins method.capital ↔ c ∈ method.initials := by
  cases method with
  | hs256 => simp [capital, Text.origins_H, initials, or_comm]
  | rs256 => simp [capital, Text.origins_R, initials, or_comm]

theorem upperCaseText_of_initials (method : SigningMethod) : ∀ initial ∈ method.initials,
    ∀ second ∈ ['s', 'S', '\u017f'],
      Text.upperCaseText [initial, second, '2', '5', '6'] = [method.capital, 'S', '2', '5', '6'] := by
  -- one equation for each initial and second letter
  cases method
  all_goals
    simp only [initials, List.forall_mem_cons, List.not_mem_nil, false_imp_iff, implies_true, and_true]
    decide +kernel

/-- The texts whose upper case is the name of a method are its spellings. Going forward is a table of six
texts for each method, and going back is by the origins of the letters. -/
theorem upperCaseText_eq_name_iff :
    Text.upperCaseText text.toList = method.name.toList ↔ method.IsSpelled text := by
  rw [toList_name]
  constructor
  · intro h
    -- the initial stands alone, and behind it the methods do not differ
    obtain ⟨initial, tail, hinitial, htext, htail⟩ :=
      Text.exists_lone_origin h method.head?_origins_capital
    obtain ⟨second, hsecond, rfl⟩ := Text.of_upperCaseText_tail htail
    exact ⟨initial, mem_initials_iff.1 hinitial, second, hsecond, htext⟩
  · rintro ⟨initial, hinitial, second, hsecond, htext⟩
    rw [htext]
    exact method.upperCaseText_of_initials initial hinitial second hsecond

theorem ofName?_eq_some_iff : ofName? text = some method ↔ method.IsSpelled text := by
  -- The names are compared in turn. They differ, so at most one of them is met and the order does not matter.
  have hnames : hs256.name.toList ≠ rs256.name.toList := by decide
  rw [← upperCaseText_eq_name_iff]
  unfold ofName?
  dsimp only
  by_cases hhs : Text.upperCaseText text.toList = hs256.name.toList
  · rw [if_pos hhs, hhs]
    cases method <;> simp [hnames]
  · rw [if_neg hhs]
    by_cases hrs : Text.upperCaseText text.toList = rs256.name.toList
    · rw [if_pos hrs, hrs]
      cases method <;> simp [hnames.symm]
    · rw [if_neg hrs]
      cases method <;> simp [hhs, hrs]

/-- **The accepted spellings of a signing method.** A text is read as a method exactly when it is a spelling
of its name, and every other text is refused as it stands. -/
theorem spellings_are_exact (text : String) :
    (∀ method, Setting.readMethod text = .ok method ↔ method.IsSpelled text) ∧
    (∀ e, Setting.readMethod text = .error e ↔
      (∀ method : SigningMethod, ¬ method.IsSpelled text) ∧ e = .unsupportedSigningMethod text) := by
  simp only [← ofName?_eq_some_iff]
  unfold Setting.readMethod
  cases ofName? text with
  | none => simp [eq_comm]
  | some method => simp

/-- The long s is an s, the h with a line below is no h, and a blank is not taken away. -/
example : Setting.readMethod "h\u017f256" = .ok .hs256 ∧
    Setting.readMethod "\u1e96s256" = .error (.unsupportedSigningMethod "\u1e96s256") ∧
    Setting.readMethod "RS256 " = .error (.unsupportedSigningMethod "RS256 ") := by
  decide +kernel

end SigningMethod

end AccessTokens
