import AccessTokens.Policy.Variables
import Mathlib.Data.List.Nodup

/-!
# Policies under environment variables

Five variables are laid over a policy in a fixed order (`Variables.inOrder`), and three of them may be set
to a text that does not read as a value (`Variables.Refuses`). The first one that is refused ends this: the
values before it stay taken, and all else is as it was (`Policy.overlay_of_refused`). When none is refused,
the key material comes last (`Policy.overlay_of_accepted`).

The values are taken one after the other, but what they come to is said of all the fields at once, as the
values of some of the variables (`Policy.withValues`, `Variables.only`). One accepted setting takes the
value of its own variable (`Setting.overlay_of_accepted`), and taking those of some variables and then those
of others is taking all of them (`Policy.withValues_only_append`). This carries the induction along the
settings (`Setting.overlayEach_append`).

The key material depends on the method that comes out and on the variables of that method
(`Variables.keyOr`). A variable that is not set leaves alone what it could change, with one exception: when
one text of a pair is set, the other one is lost (`Policy.unset_variables_keep_values`,
`Policy.unset_text_is_lost`).
-/

namespace AccessTokens

namespace Variables

/-! ### Values -/

/-- The variables of a policy in the order in which they are looked at. -/
def inOrder : List String :=
  [tokenLength, tokenPrefix, expireSeconds, abilityDelimiter, signingMethod]

/-- The variables with some names; all others are taken as not set. -/
def only (names : List String) (env : Variables) : Variables :=
  fun name => if name ∈ names then env name else none

/-- The number that the text of a variable says, with blanks around it. -/
def number? (text : String) : Option Nat := Decimal.unsigned64? (Text.trim text.toList)

/-- A variable is set to a text that does not read as a value, and this is the error. -/
inductive Refuses (env : Variables) : String → PolicyError → Prop
  | length {text : String} (hset : env tokenLength = some text) (hread : number? text = none) :
    Refuses env tokenLength (.invalidVariable tokenLength text)
  | lifetime {text : String} (hset : env expireSeconds = some text) (hread : number? text = none) :
    Refuses env expireSeconds (.invalidVariable expireSeconds text)
  | method {text : String} (hset : env signingMethod = some text)
      (hread : SigningMethod.ofName? text = none) :
    Refuses env signingMethod (.unsupportedSigningMethod text)

/-- A variable is not set, or is set to a text that reads as a value. -/
def Accepts (env : Variables) (name : String) : Prop := ∀ e, ¬ env.Refuses name e

/-- Of some variables all are accepted, or there is a first one that is refused. A name may stand in the
list more than once; the first place where it is refused counts. -/
theorem accepts_or_first_refused (env : Variables) (names : List String) :
    (∀ name ∈ names, env.Accepts name) ∨
    ∃ before name after e, names = before ++ name :: after ∧ (∀ other ∈ before, env.Accepts other) ∧
      env.Refuses name e := by
  induction names with
  | nil => exact .inl (List.forall_mem_nil _)
  | cons name names ih =>
    by_cases hname : ∃ e, env.Refuses name e
    · obtain ⟨e, hrefused⟩ := hname
      exact .inr ⟨[], name, names, e, rfl, List.forall_mem_nil _, hrefused⟩
    · have haccepted : env.Accepts name := not_exists.1 hname
      rcases ih with h | ⟨before, other, after, e, rfl, hbefore, hrefused⟩
      · exact .inl (List.forall_mem_cons.2 ⟨haccepted, h⟩)
      · exact .inr ⟨name :: before, other, after, e, rfl,
          List.forall_mem_cons.2 ⟨haccepted, hbefore⟩, hrefused⟩

/-- The value that a variable is set to, or else the current one. A text that does not read as a value counts
as not set, since an overlay stops there and takes nothing of it. -/
def valueOr {α : Type} (env : Variables) (name : String) (read : String → Option α)
    (current : α) : α :=
  ((env name).bind read).getD current

section ValueOr

variable {α : Type} {env : Variables} {name text : String} {read : String → Option α} {current : α}

theorem valueOr_of_unset (h : env name = none) : env.valueOr name read current = current := by
  rw [valueOr, h, Option.bind_none, Option.getD_none]

theorem valueOr_of_read {value : α} (hset : env name = some text) (hread : read text = some value) :
    env.valueOr name read current = value := by
  rw [valueOr, hset, Option.bind_some, hread, Option.getD_some]

theorem valueOr_only_of_mem {names : List String} (h : name ∈ names) :
    (env.only names).valueOr name read current = env.valueOr name read current := by
  rw [valueOr, only, if_pos h, valueOr]

theorem valueOr_only_of_not_mem {names : List String} (h : name ∉ names) :
    (env.only names).valueOr name read current = current :=
  valueOr_of_unset (if_neg h)

/-- A value is taken once, however often its variable is looked at. -/
theorem valueOr_valueOr : env.valueOr name read (env.valueOr name read current) =
    env.valueOr name read current := by
  unfold valueOr
  cases (env name).bind read <;> rfl

theorem valueOr_only_append (names more : List String) :
    (env.only more).valueOr name read ((env.only names).valueOr name read current) =
      (env.only (names ++ more)).valueOr name read current := by
  -- The variable counts when its name is on one of the two lists. Where it is on neither, both sides are the
  -- current value.
  by_cases hmore : name ∈ more
  · rw [valueOr_only_of_mem hmore, valueOr_only_of_mem (List.mem_append_right names hmore)]
    by_cases hnames : name ∈ names
    -- a name on both sides is looked at twice
    · rw [valueOr_only_of_mem hnames, valueOr_valueOr]
    · rw [valueOr_only_of_not_mem hnames]
  · rw [valueOr_only_of_not_mem hmore]
    by_cases hnames : name ∈ names
    · rw [valueOr_only_of_mem hnames, valueOr_only_of_mem (List.mem_append_left more hnames)]
    · rw [valueOr_only_of_not_mem hnames, valueOr_only_of_not_mem (by simp [hnames, hmore])]

end ValueOr

/-! ### Key material -/

/-- The key material that the variables of a method are set to, or else the current one. A secret has one
variable. A pair has two, and it is replaced as a whole as soon as one of them is set. -/
def keyOr (env : Variables) (method : SigningMethod) (current : Option SigningKey) :
    Option SigningKey :=
  match method with
  | .hs256 => ((env signingKey).map .hmac).or current
  | .rs256 =>
    if env rsaPrivateKey = none ∧ env rsaPublicKey = none then current
    else some (.rsa ((env rsaPrivateKey).getD "") ((env rsaPublicKey).getD ""))

/-- Key material is taken once, however often its variables are looked at. What is made of the variables
does not depend on what was held, unless none of them is set. -/
theorem keyOr_keyOr (env : Variables) (method : SigningMethod) (current : Option SigningKey) :
    env.keyOr method (env.keyOr method current) = env.keyOr method current := by
  cases method with
  | hs256 =>
    unfold keyOr
    cases env signingKey <;> rfl
  | rs256 =>
    unfold keyOr
    dsimp only
    split <;> rfl

/-- What becomes of a pair: a text that is not set is kept when the other one is not set either. Otherwise
it is empty afterwards, as the pair is made anew. -/
theorem keyOr_pair (env : Variables) (privatePem publicPem : String) :
    ∃ newPrivate newPublic,
      env.keyOr .rs256 (some (.rsa privatePem publicPem)) = some (.rsa newPrivate newPublic) ∧
        (env rsaPrivateKey = none →
          newPrivate = if env rsaPublicKey = none then privatePem else "") ∧
        (env rsaPublicKey = none →
          newPublic = if env rsaPrivateKey = none then publicPem else "") := by
  -- Either the held pair comes out as it is, or a new pair is made from the two variables, in which a text
  -- that is not set is empty. There is nothing in between.
  by_cases hunset : env rsaPrivateKey = none ∧ env rsaPublicKey = none
  · exact ⟨privatePem, publicPem, if_pos hunset, fun _ => (if_pos hunset.2).symm,
      fun _ => (if_pos hunset.1).symm⟩
  · refine ⟨_, _, if_neg hunset, fun hprivate => ?_, fun hpublic => ?_⟩
    · rw [hprivate, if_neg fun hpublic => hunset ⟨hprivate, hpublic⟩, Option.getD_none]
    · rw [hpublic, if_neg fun hprivate => hunset ⟨hprivate, hpublic⟩, Option.getD_none]

end Variables

/-- The variables that hold the key material of a method. -/
def SigningMethod.keyVariables : SigningMethod → List String
  | .hs256 => [Variables.signingKey]
  | .rs256 => [Variables.rsaPrivateKey, Variables.rsaPublicKey]

theorem Variables.keyOr_congr {env env' : Variables} {method : SigningMethod}
    (h : ∀ name ∈ method.keyVariables, env' name = env name) (current : Option SigningKey) :
    env'.keyOr method current = env.keyOr method current := by
  cases method with
  | hs256 =>
    have hkey : env' signingKey = env signingKey := h _ (by decide)
    unfold keyOr
    dsimp only
    rw [hkey]
  | rs256 =>
    have hprivate : env' rsaPrivateKey = env rsaPrivateKey := h _ (by decide)
    have hpublic : env' rsaPublicKey = env rsaPublicKey := h _ (by decide)
    unfold keyOr
    dsimp only
    rw [hprivate, hpublic]

namespace Policy

/-- A policy with the value of every variable that is set to one. -/
def withValues (env : Variables) (p : Policy) : Policy :=
  { p with
    tokenLength := env.valueOr Variables.tokenLength Variables.number? p.tokenLength
    tokenPrefix := env.valueOr Variables.tokenPrefix some p.tokenPrefix
    expireAfter := env.valueOr Variables.expireSeconds
      (fun text => (Variables.number? text).map .ofSeconds) p.expireAfter
    abilityDelimiter := env.valueOr Variables.abilityDelimiter some p.abilityDelimiter
    signingMethod := env.valueOr Variables.signingMethod SigningMethod.ofName? p.signingMethod }

theorem withValues_only_append (env : Variables) (names more : List String) (p : Policy) :
    (p.withValues (env.only names)).withValues (env.only more) =
      p.withValues (env.only (names ++ more)) := by
  simp only [withValues, Variables.valueOr_only_append]

theorem withValues_only_nil (env : Variables) (p : Policy) : p.withValues (env.only []) = p := rfl

theorem withValues_only_inOrder (env : Variables) (p : Policy) :
    p.withValues (env.only Variables.inOrder) = p.withValues env := by
  simp (disch := decide) only [withValues, Variables.valueOr_only_of_mem]

end Policy

/-! ### One setting after the other -/

namespace Setting

variable {env : Variables} {s : Setting} {e : PolicyError} {text : String}

theorem readNumber_of_number? (name : String) {n : Nat} (h : Variables.number? text = some n) :
    readNumber name text = .ok n := by
  change Decimal.unsigned64? (Text.trim text.toList) = some n at h
  rw [readNumber, h]

theorem readNumber_of_number?_eq_none (name : String) (h : Variables.number? text = none) :
    readNumber name text = .error (.invalidVariable name text) := by
  change Decimal.unsigned64? (Text.trim text.toList) = none at h
  rw [readNumber, h]

theorem readMethod_of_ofName? {method : SigningMethod} (h : SigningMethod.ofName? text = some method) :
    readMethod text = .ok method := by
  rw [readMethod, h]

theorem readMethod_of_ofName?_eq_none (h : SigningMethod.ofName? text = none) :
    readMethod text = .error (.unsupportedSigningMethod text) := by
  rw [readMethod, h]

/-- A text that is not refused gives its variable a value, and changes nothing else. This is the only place
where the settings are gone through one by one. -/
theorem apply_of_accepted (hs : s ∈ all) (hset : env s.name = some text)
    (h : env.Accepts s.name) (p : Policy) :
    s.apply text p = .ok (p.withValues (env.only [s.name])) := by
  simp only [all, List.mem_cons, List.not_mem_nil, or_false] at hs
  rcases hs with rfl | rfl | rfl | rfl | rfl
  -- in each case the other four fields are those of the policy, since the names are all different
  all_goals simp (disch := decide) only [Policy.withValues, Variables.valueOr_only_of_mem,
    Variables.valueOr_only_of_not_mem]
  · cases hread : Variables.number? text with
    | none => exact absurd (.length hset hread) (h _)
    | some n =>
      rw [readNumber_of_number? _ hread, Variables.valueOr_of_read hset hread]
      rfl
  · rw [Variables.valueOr_of_read hset rfl]
  · cases hread : Variables.number? text with
    | none => exact absurd (.lifetime hset hread) (h _)
    | some n =>
      have hspan : (Variables.number? text).map Time.Duration.ofSeconds = some (.ofSeconds n) := by
        rw [hread, Option.map_some]
      rw [readNumber_of_number? _ hread, Variables.valueOr_of_read hset hspan]
      rfl
  · rw [Variables.valueOr_of_read hset rfl]
  · cases hread : SigningMethod.ofName? text with
    | none => exact absurd (.method hset hread) (h _)
    | some method =>
      rw [readMethod_of_ofName? hread, Variables.valueOr_of_read hset hread]
      rfl

/-- One variable that is not refused: its value is taken if it is set, and else nothing happens. In both
cases this is what `Policy.withValues` says of this variable alone. -/
theorem overlay_of_accepted (hs : s ∈ all) (h : env.Accepts s.name) (p : Policy) :
    s.overlay env p = .ok (p.withValues (env.only [s.name])) := by
  unfold overlay
  cases hset : env s.name with
  | none =>
    -- a name that is not set may be left out
    have hunset : env.only [s.name] = env.only [] := by
      funext name
      simp only [Variables.only, List.mem_singleton, List.not_mem_nil, if_false]
      split
      · next hname => rw [hname, hset]
      · rfl
    rw [hunset, Policy.withValues_only_nil]
  | some text => exact apply_of_accepted hs hset h p

theorem eq_of_name_eq {t : Setting} (hs : s ∈ all) (ht : t ∈ all) (h : s.name = t.name) : s = t :=
  List.inj_on_of_nodup_map (by decide : (all.map name).Nodup) hs ht h

/-- One variable that is refused ends the overlay with its own error, whatever the policy holds. There are
three such variables, and each is read by its own setting. -/
theorem overlay_of_refused (hs : s ∈ all) (h : env.Refuses s.name e) (p : Policy) :
    s.overlay env p = .error e := by
  -- The refusal is of a name, and the name says which of the settings this is.
  generalize hname : s.name = name at h
  unfold overlay
  cases h with
  | length hset hread =>
    obtain rfl : s = all[0] := eq_of_name_eq hs (List.getElem_mem _) hname
    rw [hname, hset]
    change (do return { p with tokenLength := ← readNumber Variables.tokenLength _ }) = _
    rw [readNumber_of_number?_eq_none _ hread]
    rfl
  | lifetime hset hread =>
    obtain rfl : s = all[2] := eq_of_name_eq hs (List.getElem_mem _) hname
    rw [hname, hset]
    change (do return { p with expireAfter := .ofSeconds (← readNumber Variables.expireSeconds _) }) = _
    rw [readNumber_of_number?_eq_none _ hread]
    rfl
  | method hset hread =>
    obtain rfl : s = all[4] := eq_of_name_eq hs (List.getElem_mem _) hname
    rw [hname, hset]
    change (do return { p with signingMethod := ← readMethod _ }) = _
    rw [readMethod_of_ofName?_eq_none hread]
    rfl

/-- The values of settings that are all accepted are taken together, whatever comes after them. Each of them
sets a field of its own, so it is the same whether they are taken one by one or at once. -/
theorem overlayEach_append {before : List Setting} (hbefore : ∀ s ∈ before, s ∈ all)
    (h : ∀ s ∈ before, env.Accepts s.name) (rest : List Setting) (p : Policy) :
    overlayEach env (before ++ rest) p =
      overlayEach env rest (p.withValues (env.only (before.map name))) := by
  -- each setting hands a policy with one more value to those that follow it
  induction before generalizing p with
  | nil => rfl
  | cons s before ih =>
    rw [List.forall_mem_cons] at hbefore h
    rw [List.cons_append, overlayEach, overlay_of_accepted hbefore.1 h.1 p]
    show overlayEach env (before ++ rest) (p.withValues (env.only [s.name])) = _
    rw [ih hbefore.2 h.2, Policy.withValues_only_append, List.singleton_append, List.map_cons]

/-- Settings that are all accepted, and then one that is refused. The settings after it are not looked at, so
a second refused text among them has no error. -/
theorem overlayEach_of_refused {before : List Setting} (hbefore : ∀ s ∈ before, s ∈ all)
    (haccepted : ∀ s ∈ before, env.Accepts s.name) (hs : s ∈ all) (h : env.Refuses s.name e)
    (after : List Setting) (p : Policy) :
    overlayEach env (before ++ s :: after) p =
      (p.withValues (env.only (before.map name)), some e) := by
  rw [overlayEach_append hbefore haccepted, overlayEach, overlay_of_refused hs h]

/-- Settings read their own variables and no others. So a change to any other variable does not show,
neither in the values nor in the error. -/
theorem overlayEach_congr {env' : Variables} {settings : List Setting}
    (h : ∀ s ∈ settings, env' s.name = env s.name) (p : Policy) :
    overlayEach env' settings p = overlayEach env settings p := by
  -- A setting that takes the same step under both hands the same policy on, so the rest is compared from
  -- there.
  induction settings generalizing p with
  | nil => rfl
  | cons s settings ih =>
    rw [List.forall_mem_cons] at h
    have hstep : s.overlay env' p = s.overlay env p := by
      unfold overlay
      rw [h.1]
    rw [overlayEach, overlayEach, hstep]
    split
    · exact ih h.2 _
    · rfl

theorem all_map_name : all.map name = Variables.inOrder := rfl

end Setting

/-! ### The whole overlay -/

namespace Policy

variable {env : Variables} {p q : Policy}

theorem overlayKey_eq (env : Variables) (p : Policy) :
    p.overlayKey env = { p with signingKey := env.keyOr p.signingMethod p.signingKey } := by
  -- Only the variables of the method are looked at, and each is set or not.
  obtain ⟨_, _, _, method, _, _⟩ := p
  unfold overlayKey Variables.keyOr
  cases method with
  | hs256 => cases env Variables.signingKey <;> rfl
  | rs256 => cases env Variables.rsaPrivateKey <;> cases env Variables.rsaPublicKey <;> rfl

/-- Without a refused variable all the values are taken, and then the key material. The method whose key
material is taken is the one that the variables have set, if they have set one. -/
theorem overlay_of_accepted (h : ∀ name ∈ Variables.inOrder, env.Accepts name) (p : Policy) :
    p.overlay env = ({ p.withValues env with
      signingKey := env.keyOr (p.withValues env).signingMethod p.signingKey }, none) := by
  have haccepted : ∀ s ∈ Setting.all, env.Accepts s.name := fun s hs =>
    h _ (Setting.all_map_name ▸ List.mem_map_of_mem hs)
  -- All the settings are a run that is accepted, with nothing after it.
  have heach := Setting.overlayEach_append (fun _ hs => hs) haccepted [] p
  rw [List.append_nil, Setting.all_map_name, withValues_only_inOrder] at heach
  rw [overlay, heach]
  show (overlayKey env (p.withValues env), none) = _
  rw [overlayKey_eq]
  rfl

/-- The first refused variable leaves what was laid over before it. The key material is not looked at then,
although its variables may be set. -/
theorem overlay_of_refused {before after : List String} {name : String} {e : PolicyError}
    (horder : Variables.inOrder = before ++ name :: after)
    (hbefore : ∀ other ∈ before, env.Accepts other) (h : env.Refuses name e) (p : Policy) :
    p.overlay env = (p.withValues (env.only before), some e) := by
  -- where the names are cut the settings are cut
  rw [← Setting.all_map_name] at horder
  obtain ⟨settings, rest, hall, rfl, hrest⟩ := List.map_eq_append_iff.1 horder
  obtain ⟨s, later, rfl, rfl, rfl⟩ := List.map_eq_cons_iff.1 hrest
  have hmem : ∀ t ∈ settings ++ s :: later, t ∈ Setting.all := fun t ht => hall ▸ ht
  have heach := Setting.overlayEach_of_refused (fun t ht => hmem t (List.mem_append_left _ ht))
    (fun t ht => hbefore _ (List.mem_map_of_mem ht)) (hmem s (by simp)) h later p
  rw [overlay, hall, heach]

/-- An overlay reads the variables of the settings and those of the method that comes out. The variables of
the other method may be set to anything. -/
theorem overlay_congr {env' : Variables}
    (h : ∀ name ∈ Variables.inOrder ++ (p.overlay env).1.signingMethod.keyVariables,
      env' name = env name) :
    p.overlay env' = p.overlay env := by
  rw [List.forall_mem_append] at h
  obtain ⟨hread, hkey⟩ := h
  have heach : Setting.overlayEach env' Setting.all p = Setting.overlayEach env Setting.all p :=
    Setting.overlayEach_congr (fun s hs => hread _ (Setting.all_map_name ▸ List.mem_map_of_mem hs)) p
  -- the same settings bring out the same method, and so the variables of its key material are the same
  unfold overlay at hkey ⊢
  rw [heach]
  split at hkey
  · next q hq =>
    rw [overlayKey_eq] at hkey
    show (overlayKey env' q, none) = (overlayKey env q, none)
    rw [overlayKey_eq, overlayKey_eq, Variables.keyOr_congr hkey]
  · rfl

theorem withValues_withValues (env : Variables) (p : Policy) :
    (p.withValues env).withValues env = p.withValues env := by
  simp only [withValues, Variables.valueOr_valueOr]

/-- A second overlay with the same variables finds what the first one left. Each field has been set to what
the variables say, or is not set by them at all. -/
theorem overlay_overlay (env : Variables) (p : Policy) :
    (p.overlay env).1.overlay env = p.overlay env := by
  -- What is refused depends on the variables alone, so the second overlay ends where the first one did.
  rcases env.accepts_or_first_refused Variables.inOrder with
    h | ⟨before, name, after, e, horder, hbefore, hrefused⟩
  · rw [overlay_of_accepted h p, overlay_of_accepted h]
    -- the fields that are written do not depend on the key
    show ({ (p.withValues env).withValues env with
      signingKey := env.keyOr ((p.withValues env).withValues env).signingMethod
        (env.keyOr (p.withValues env).signingMethod p.signingKey) }, none) = _
    rw [withValues_withValues, Variables.keyOr_keyOr]
  · rw [overlay_of_refused horder hbefore hrefused p, overlay_of_refused horder hbefore hrefused,
      withValues_withValues]

/-- **What an overlay does.** Either some variable is set to a text that does not read as a value: then the
first one of these gives its error, the values of the variables before it are taken, and the key material
is as it was. Or there is none: then all the values are taken, and the key material is that of the method
which came out, whose variables alone count. The secret of HS256 does not matter where RS256 comes out,
nor the pair of RS256 where HS256 does. A second overlay with the same variables has the same outcome and
changes nothing. -/
theorem overlay_is_exact (env : Variables) (p : Policy) :
    ((∃ before name after e, Variables.inOrder = before ++ name :: after ∧
        (∀ other ∈ before, env.Accepts other) ∧ env.Refuses name e ∧
        p.overlay env = (p.withValues (env.only before), some e)) ∨
      ((∀ name ∈ Variables.inOrder, env.Accepts name) ∧
        p.overlay env = ({ p.withValues env with
          signingKey := env.keyOr (p.withValues env).signingMethod p.signingKey }, none))) ∧
    (∀ env' : Variables, (∀ name, name ≠ Variables.signingKey → env' name = env name) →
      (p.overlay env).1.signingMethod = .rs256 → p.overlay env' = p.overlay env) ∧
    (∀ env' : Variables, (∀ name, name ≠ Variables.rsaPrivateKey → name ≠ Variables.rsaPublicKey →
        env' name = env name) →
      (p.overlay env).1.signingMethod = .hs256 → p.overlay env' = p.overlay env) ∧
    (p.overlay env).1.overlay env = p.overlay env := by
  refine ⟨?_, ?_, ?_, overlay_overlay env p⟩
  · rcases env.accepts_or_first_refused Variables.inOrder with
      h | ⟨before, name, after, e, horder, hbefore, hrefused⟩
    · exact .inr ⟨h, overlay_of_accepted h p⟩
    · exact .inl ⟨before, name, after, e, horder, hbefore, hrefused,
        overlay_of_refused horder hbefore hrefused p⟩
  · intro env' hsame hmethod
    have hnot : ∀ name ∈ Variables.inOrder ++ SigningMethod.rs256.keyVariables,
        name ≠ Variables.signingKey := by decide
    -- the secret is neither one of the five variables nor one of the pair
    refine overlay_congr fun name hname => hsame name ?_
    rw [hmethod] at hname
    exact hnot name hname
  · intro env' hsame hmethod
    have hnot : ∀ name ∈ Variables.inOrder ++ SigningMethod.hs256.keyVariables,
        name ≠ Variables.rsaPrivateKey ∧ name ≠ Variables.rsaPublicKey := by decide
    refine overlay_congr fun name hname => ?_
    rw [hmethod] at hname
    exact hsame name (hnot name hname).1 (hnot name hname).2

/-- Both texts of a pair are set, and a secret is set beside them. -/
def pairVariables : Variables := fun name =>
  if name = Variables.signingMethod then some "rs256"
  else if name = Variables.rsaPrivateKey then some "private"
  else if name = Variables.rsaPublicKey then some "public"
  else none

/-- A secret beside the pair does not matter, and neither does a second overlay. -/
theorem overlay_is_exact_straySecret :
    let p : Policy := {}
    let env' := Function.update pairVariables Variables.signingKey (some "secret")
    (p.overlay pairVariables).1.signingMethod = .rs256 ∧
      p.overlay env' = p.overlay pairVariables ∧
      (p.overlay env').1.overlay env' = p.overlay env' := by
  intro p env'
  have hmethod : (p.overlay pairVariables).1.signingMethod = .rs256 := by decide
  obtain ⟨-, hsecret, -, -⟩ := overlay_is_exact pairVariables p
  obtain ⟨-, -, -, hagain⟩ := overlay_is_exact env' p
  exact ⟨hmethod, hsecret env' (fun name hname => Function.update_of_ne hname ..) hmethod, hagain⟩

/-- A lifetime that does not read as a number: the length is taken, and the delimiter is not looked at. -/
example :
    let env : Variables := fun name =>
      if name = Variables.tokenLength then some " +48 "
      else if name = Variables.expireSeconds then some " lots "
      else if name = Variables.abilityDelimiter then some "."
      else none
    ({} : Policy).overlay env =
      ({ tokenLength := 48 }, some (.invalidVariable Variables.expireSeconds " lots ")) := by
  decide

/-! ### Variables that are not set -/

/-- What an overlay without an error leaves. Such an overlay has accepted every variable, since a refused one
would have left its error. -/
theorem eq_of_overlay (h : p.overlay env = (q, none)) : q = { p.withValues env with
    signingKey := env.keyOr (p.withValues env).signingMethod p.signingKey } := by
  rcases env.accepts_or_first_refused Variables.inOrder with
    haccepted | ⟨before, name, after, e, horder, hbefore, hrefused⟩
  · rw [overlay_of_accepted haccepted] at h
    exact (Prod.mk.inj h).1.symm
  · rw [overlay_of_refused horder hbefore hrefused] at h
    cases (Prod.mk.inj h).2

/-- **What variables that are not set leave alone.** Each of the five settings keeps its value when its
variable is not set, and so does the key material when HS256 comes out and its variable is not set. Of a
pair of texts that RS256 comes out with, both are kept when neither variable is set; when one of them is
set, the text of the other one is lost. -/
theorem unset_variables_keep_values (h : p.overlay env = (q, none)) :
    (env Variables.tokenLength = none → q.tokenLength = p.tokenLength) ∧
    (env Variables.tokenPrefix = none → q.tokenPrefix = p.tokenPrefix) ∧
    (env Variables.expireSeconds = none → q.expireAfter = p.expireAfter) ∧
    (env Variables.abilityDelimiter = none → q.abilityDelimiter = p.abilityDelimiter) ∧
    (env Variables.signingMethod = none → q.signingMethod = p.signingMethod) ∧
    (q.signingMethod = .hs256 → env Variables.signingKey = none → q.signingKey = p.signingKey) ∧
    (∀ privatePem publicPem, q.signingMethod = .rs256 →
      p.signingKey = some (.rsa privatePem publicPem) →
      ∃ newPrivate newPublic, q.signingKey = some (.rsa newPrivate newPublic) ∧
        (env Variables.rsaPrivateKey = none →
          newPrivate = if env Variables.rsaPublicKey = none then privatePem else "") ∧
        (env Variables.rsaPublicKey = none →
          newPublic = if env Variables.rsaPrivateKey = none then publicPem else "")) := by
  obtain rfl := eq_of_overlay h
  refine ⟨Variables.valueOr_of_unset, Variables.valueOr_of_unset, Variables.valueOr_of_unset,
    Variables.valueOr_of_unset, Variables.valueOr_of_unset, ?_, ?_⟩
  · intro hmethod hunset
    change (p.withValues env).signingMethod = .hs256 at hmethod
    -- the method that comes out decides which variables are looked at, not the method that was held
    show env.keyOr (p.withValues env).signingMethod p.signingKey = p.signingKey
    rw [hmethod, Variables.keyOr, hunset]
    rfl
  · intro privatePem publicPem hmethod hkey
    change (p.withValues env).signingMethod = .rs256 at hmethod
    show ∃ newPrivate newPublic, env.keyOr (p.withValues env).signingMethod p.signingKey =
      some (.rsa newPrivate newPublic) ∧ _
    rw [hmethod, hkey]
    exact env.keyOr_pair privatePem publicPem

/-- A policy that holds a pair. -/
def holdsPair : Policy :=
  { signingMethod := .rs256, signingKey := some (.rsa "old private" "old public") }

theorem unset_variables_keep_values_prefixOnly :
    let env : Variables := fun name => if name = Variables.tokenPrefix then some "pk_" else none
    let q : Policy := { holdsPair with tokenPrefix := "pk_" }
    holdsPair.overlay env = (q, none) ∧ q.tokenLength = holdsPair.tokenLength ∧
      q.expireAfter = holdsPair.expireAfter ∧
      ∃ newPrivate newPublic, q.signingKey = some (.rsa newPrivate newPublic) ∧
        newPrivate = "old private" ∧ newPublic = "old public" := by
  intro env q
  have hq : holdsPair.overlay env = (q, none) := by decide
  obtain ⟨hlength, -, hlifetime, -, -, -, hpair⟩ := unset_variables_keep_values hq
  obtain ⟨newPrivate, newPublic, hkey, hprivate, hpublic⟩ := hpair _ _ rfl rfl
  exact ⟨hq, hlength (by decide), hlifetime (by decide), newPrivate, newPublic, hkey,
    hprivate (by decide), hpublic (by decide)⟩

/-- One text of a pair is set, and the other one is lost although its variable is not set. The policy can
no longer be used. -/
theorem unset_text_is_lost :
    let env : Variables := fun name => if name = Variables.rsaPrivateKey then some "new private" else none
    let q : Policy := { holdsPair with signingKey := some (.rsa "new private" "") }
    holdsPair.overlay env = (q, none) ∧ env Variables.rsaPublicKey = none ∧
      holdsPair.checkSigning = .ok () ∧ q.checkSigning = .error .missingRsaKeyPair := by
  decide

end Policy

end AccessTokens
