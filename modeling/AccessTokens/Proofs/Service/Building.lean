import AccessTokens.Proofs.Policy.Expiry
import AccessTokens.Service.Builder
import Mathlib.Data.List.Induction

/-!
# The policy that a list of steps leaves

Steps may be made in any order and any number of times. What each of them sets is written down apart from
how it is made (`Builder.Step.settings`); the method and the key are one setting there, because no step sets
one of them alone.

Along a list the last step that sets something decides (`Builder.field_ofSteps`), and where there is none,
the default stays. For the method and the key it is the same step, so that they fit together unless a whole
policy was handed over (`Builder.signing_cases`), and that step tells what is wrong with the key material
(`Builder.checkSigning_cases`). The key material is looked at before everything else in a policy
(`Policy.check_eq_error_iff_of_signing`). Hence building tells it whatever else is wrong
(`Builder.last_step_decides`).
-/

namespace AccessTokens

open Time (Instant Duration)

/-! ### The order of the checks -/

/-- An error is about the key material. -/
def PolicyError.IsOfSigning : PolicyError → Prop
  | .missingHmacKey | .missingRsaKeyPair | .signingKeyMismatch _ => True
  | _ => False

namespace Policy

variable {p : Policy} {now : Instant} {e : PolicyError}

/-- With good key material it is something else that is wrong. The four other checks have errors of their
own, none of which is about keys. -/
theorem not_isOfSigning_of_check (hsigning : p.checkSigning = .ok ()) (h : p.check now = .error e) :
    ¬ e.IsOfSigning := by
  unfold check at h
  rw [hsigning] at h
  -- each of the checks that are left has its own error
  by_cases hlength : p.tokenLength < leastTokenLength
  · rw [if_pos hlength] at h
    cases h
    exact id
  · rw [if_neg hlength] at h
    by_cases hlabel : p.tokenPrefix.toList.contains tokenSeparator
    · rw [if_pos hlabel] at h
      cases h
      exact id
    · rw [if_neg hlabel] at h
      by_cases hdelimiter : p.abilityDelimiter.isEmpty ||
          p.abilityDelimiter.toList.contains Ability.listSeparator
      · rw [if_pos hdelimiter] at h
        cases h
        exact id
      · rw [if_neg hdelimiter] at h
        rcases p.expiryFrom_cases now with ⟨-, hexpiry⟩ | ⟨-, -, expiry, -, hexpiry⟩ | ⟨-, -, hexpiry⟩
        all_goals
          rw [hexpiry] at h
          cases h
        exact id

/-- The key material is looked at first, so that what is wrong with it is told whatever else is wrong. In
particular the clock does not matter, although the last check depends on it. -/
theorem check_eq_error_iff_of_signing (he : e.IsOfSigning) :
    p.check now = .error e ↔ p.checkSigning = .error e := by
  cases hsigning : p.checkSigning with
  | error e' =>
    unfold check
    rw [hsigning]
    rfl
  | ok _ =>
    constructor
    · intro h
      exact absurd he (not_isOfSigning_of_check hsigning h)
    · intro h
      cases h

end Policy

namespace Builder

/-! ### What a step sets -/

/-- What may be set of a policy, each with its value if it is set. The method and the key go together: no
step sets one of them without the other. -/
structure Settings where
  tokenLength : Option Nat := none
  tokenPrefix : Option String := none
  expireAfter : Option Duration := none
  abilityDelimiter : Option String := none
  /-- The method and the key. -/
  signing : Option (SigningMethod × Option SigningKey) := none

/-- What a step sets. A whole policy sets everything, also what it holds by default. The store and the
signal are no part of a policy. -/
def Step.settings : Step → Settings
  | .policy p =>
    { tokenLength := some p.tokenLength
      tokenPrefix := some p.tokenPrefix
      expireAfter := some p.expireAfter
      abilityDelimiter := some p.abilityDelimiter
      signing := some (p.signingMethod, p.signingKey) }
  | .signingKey secret => { signing := some (.hs256, some (.hmac secret)) }
  | .rsaKeys privatePem publicPem => { signing := some (.rs256, some (.rsa privatePem publicPem)) }
  | .tokenLength length => { tokenLength := some length }
  | .tokenPrefix text => { tokenPrefix := some text }
  | .expiration lifetime => { expireAfter := some lifetime }
  | .abilityDelimiter text => { abilityDelimiter := some text }
  | .store | .memoryStore | .cancellation _ => {}

variable {α : Type} {setting : Settings → Option α} {steps : List Step}

/-- The last step of a list that sets something. It is looked for from the end. -/
def lastStep? (setting : Settings → Option α) (steps : List Step) : Option Step :=
  steps.reverse.find? fun s => (setting s.settings).isSome

/-- The value that the last step sets, or the default when there is none. -/
def lastValue (setting : Settings → Option α) (default : α) (steps : List Step) : α :=
  ((lastStep? setting steps).bind fun s => setting s.settings).getD default

theorem lastStep?_concat (setting : Settings → Option α) (steps : List Step) (s : Step) :
    lastStep? setting (steps ++ [s]) =
      if (setting s.settings).isSome then some s else lastStep? setting steps := by
  unfold lastStep?
  rw [List.reverse_append, List.reverse_singleton, List.singleton_append, List.find?_cons]
  -- the last step is the first one to be found from the end
  split <;> simp_all

/-- One more step: its own value counts, if it sets one. This is what carries the induction along the steps,
for all settings alike. -/
theorem lastValue_concat (setting : Settings → Option α) (default : α) (steps : List Step) (s : Step) :
    lastValue setting default (steps ++ [s]) =
      (setting s.settings).getD (lastValue setting default steps) := by
  unfold lastValue
  rw [lastStep?_concat]
  cases hset : setting s.settings with
  | none => rfl
  | some value =>
    show ((some s).bind fun s => setting s.settings).getD default = value
    rw [Option.bind_some, hset, Option.getD_some]

theorem ofSteps_concat (steps : List Step) (s : Step) :
    (ofSteps (steps ++ [s])).policy = s.setPolicy (ofSteps steps).policy := by
  unfold ofSteps
  rw [List.foldl_append]
  rfl

/-- The last step that sets a field decides it, when every step sets the field to the value that is written
down for it or else leaves it alone. -/
theorem field_ofSteps (field : Policy → α) (h : ∀ (s : Step) (p : Policy),
    field (s.setPolicy p) = (setting s.settings).getD (field p)) (steps : List Step) :
    field (ofSteps steps).policy = lastValue setting (field {}) steps := by
  -- along the steps from the first to the last
  induction steps using List.reverseRecOn with
  | nil => rfl
  | append_singleton steps s ih => rw [ofSteps_concat, h, ih, lastValue_concat]

theorem signing_ofSteps (steps : List Step) :
    ((ofSteps steps).policy.signingMethod, (ofSteps steps).policy.signingKey) =
      lastValue (·.signing) (.hs256, none) steps :=
  field_ofSteps (fun p => (p.signingMethod, p.signingKey)) (fun s p => by cases s <;> rfl) steps

/-! ### Steps without a whole policy -/

/-- Without a whole policy, the method and the key are those of one step for either method, or there is no
key. -/
theorem signing_cases (h : ∀ q, .policy q ∉ steps) :
    let p := (ofSteps steps).policy
    let last := lastStep? (·.signing) steps
    (last = none ∧ p.signingMethod = .hs256 ∧ p.signingKey = none) ∨
    (∃ secret, last = some (.signingKey secret) ∧ p.signingMethod = .hs256 ∧
      p.signingKey = some (.hmac secret)) ∨
    (∃ privatePem publicPem, last = some (.rsaKeys privatePem publicPem) ∧ p.signingMethod = .rs256 ∧
      p.signingKey = some (.rsa privatePem publicPem)) := by
  intro p last
  have hpair : (p.signingMethod, p.signingKey) =
      (last.bind fun s => s.settings.signing).getD (.hs256, none) := signing_ofSteps steps
  cases hlast : last with
  | none =>
    rw [hlast] at hpair
    exact .inl ⟨rfl, Prod.mk.inj hpair⟩
  | some s =>
    rw [hlast] at hpair
    have hmem : s ∈ steps := List.mem_reverse.1 (List.mem_of_find?_eq_some hlast)
    have hsets : s.settings.signing.isSome = true :=
      List.find?_some (p := fun s : Step => s.settings.signing.isSome) hlast
    -- the other steps set neither
    cases s with
    | policy q => exact absurd hmem (h q)
    | signingKey secret => exact .inr (.inl ⟨secret, rfl, Prod.mk.inj hpair⟩)
    | rsaKeys privatePem publicPem => exact .inr (.inr ⟨privatePem, publicPem, rfl, Prod.mk.inj hpair⟩)
    | tokenLength | tokenPrefix | expiration | abilityDelimiter | store | memoryStore | cancellation =>
      cases hsets

/-- Without a whole policy, what is wrong with the key material is told by the last step that sets it, and the
key never is of the other method. -/
theorem checkSigning_cases (h : ∀ q, .policy q ∉ steps) :
    let p := (ofSteps steps).policy
    let last := lastStep? (·.signing) steps
    (∀ method, p.checkSigning ≠ .error (.signingKeyMismatch method)) ∧
    (p.checkSigning = .error .missingHmacKey ↔ last = some (.signingKey "")) ∧
    (p.checkSigning = .error .missingRsaKeyPair ↔
      ∃ privatePem publicPem, last = some (.rsaKeys privatePem publicPem) ∧
        (privatePem = "" ∨ publicPem = "")) := by
  intro p last
  unfold Policy.checkSigning
  -- the three ways in which the key material was set, each with its own ways to be wrong
  rcases signing_cases h with ⟨hlast, hmethod, hkey⟩ | ⟨secret, hlast, hmethod, hkey⟩ |
    ⟨privatePem, publicPem, hlast, hmethod, hkey⟩
  all_goals rw [hmethod, hkey, show last = _ from hlast]
  · -- for HS256 the key may be missing
    simp
  · by_cases hempty : secret = "" <;> simp [hempty]
  · by_cases hempty : privatePem = "" ∨ publicPem = "" <;> simp [hempty]

theorem build_eq_error_iff {b : Builder} {now : Instant} {signal : Signal} {e : PolicyError} :
    b.build now signal = .error (.invalidPolicy e) ↔ b.policy.check now = .error e := by
  unfold build
  cases b.policy.check now with
  | error e' =>
    show Except.error (ServiceError.invalidPolicy e') = .error (.invalidPolicy e) ↔ _
    simp
  | ok _ =>
    constructor <;> intro h <;> cases h

/-- **The last step decides.** Each setting of the policy that a list of steps leaves comes from the last
step that sets it, and is the default when there is none. The method and the key are one setting, so both
come from the same step. This is the policy that building checks.

When no step hands over a whole policy, the method and the key never disagree. Then the secret is missing
exactly when the last step that sets how to sign brings an empty secret, and the pair exactly when that step
brings a pair of which a text is empty. What the other steps set has no part in this, and neither has the
clock. -/
theorem last_step_decides (steps : List Step) :
    let b := ofSteps steps
    (b.policy.tokenLength = lastValue (·.tokenLength) 32 steps ∧
      b.policy.tokenPrefix = lastValue (·.tokenPrefix) "" steps ∧
      b.policy.expireAfter = lastValue (·.expireAfter) (.ofSeconds 86400) steps ∧
      b.policy.abilityDelimiter = lastValue (·.abilityDelimiter) ":" steps ∧
      (b.policy.signingMethod, b.policy.signingKey) = lastValue (·.signing) (.hs256, none) steps) ∧
    (∀ (now : Instant) (signal : Signal) (e : PolicyError),
      b.build now signal = .error (.invalidPolicy e) ↔ b.policy.check now = .error e) ∧
    ((∀ p, .policy p ∉ steps) → ∀ (now : Instant) (signal : Signal),
      (∀ method, b.build now signal ≠ .error (.invalidPolicy (.signingKeyMismatch method))) ∧
      (b.build now signal = .error (.invalidPolicy .missingHmacKey) ↔
        lastStep? (·.signing) steps = some (.signingKey "")) ∧
      (b.build now signal = .error (.invalidPolicy .missingRsaKeyPair) ↔
        ∃ privatePem publicPem, lastStep? (·.signing) steps = some (.rsaKeys privatePem publicPem) ∧
          (privatePem = "" ∨ publicPem = ""))) := by
  intro b
  refine ⟨⟨?_, ?_, ?_, ?_, signing_ofSteps steps⟩, fun _ _ _ => build_eq_error_iff, ?_⟩
  · exact field_ofSteps Policy.tokenLength (fun s p => by cases s <;> rfl) steps
  · exact field_ofSteps Policy.tokenPrefix (fun s p => by cases s <;> rfl) steps
  · exact field_ofSteps Policy.expireAfter (fun s p => by cases s <;> rfl) steps
  · exact field_ofSteps Policy.abilityDelimiter (fun s p => by cases s <;> rfl) steps
  · intro h now signal
    -- an error about the key material is told before all others
    have hbuild {e : PolicyError} (he : e.IsOfSigning) :
        b.build now signal = .error (.invalidPolicy e) ↔ b.policy.checkSigning = .error e :=
      build_eq_error_iff.trans (Policy.check_eq_error_iff_of_signing he)
    rw [hbuild (e := .missingHmacKey) trivial, hbuild (e := .missingRsaKeyPair) trivial]
    simp only [Ne, hbuild (e := .signingKeyMismatch _) trivial]
    exact checkSigning_cases h

/-- Good keys, then an empty secret among settings that are wrong themselves. -/
theorem last_step_decides_emptySecret :
    let steps : List Step :=
      [.rsaKeys "private" "public", .tokenLength 1, .signingKey "", .tokenPrefix "a|", .cancellation 3]
    (∀ p, .policy p ∉ steps) ∧ lastStep? (·.signing) steps = some (.signingKey "") ∧
      (ofSteps steps).build .epoch 0 = .error (.invalidPolicy .missingHmacKey) := by
  intro steps
  have hplain : ∀ p, .policy p ∉ steps := by
    intro p hmem
    simp only [steps, List.mem_cons, reduceCtorEq, List.not_mem_nil, or_self] at hmem
  have hlast : lastStep? (·.signing) steps = some (.signingKey "") := by decide
  obtain ⟨-, -, hsigning⟩ := last_step_decides steps
  exact ⟨hplain, hlast, (hsigning hplain .epoch 0).2.1.2 hlast⟩

/-- A whole policy may bring a key of the other method. -/
example :
    let p : Policy := { signingMethod := .rs256, signingKey := some (.hmac "secret") }
    (ofSteps [.rsaKeys "private" "public", .policy p, .tokenLength 32]).build .epoch 0 =
      .error (.invalidPolicy (.signingKeyMismatch .rs256)) := rfl

end Builder

end AccessTokens
