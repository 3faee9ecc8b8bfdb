import AccessTokens.Proofs.Secret.Layout
import AccessTokens.Proofs.Service.Issuing
import AccessTokens.Storage.Scripted

/-!
# What an issued token is made of

A service with a policy that passes is asked for a token. Whatever bytes it draws, whenever it is, and
whatever store it has, the one thing that it asks of the store is to keep a record of the digest of a
fresh secret, and the secret is laid out from those bytes (`Secret.IsLaidOut`). If the store answers with a
record, the text that is handed out is the id of that record and the secret, with the only separator
between them, and it comes apart into the two again (`Service.issued_tokens_are_consistent`).

The store may answer with any record, under any id. Nothing of the text but its first part depends on the
answer.
-/

namespace AccessTokens

open Time (Instant)

namespace Service

variable {σ : Type} (driver : Storage.Driver σ) (o : Occasion) (n : Nat)

/-- What issuing comes to once the request is accepted, bytes were drawn and the expiry is in the calendar:
the store is asked to keep one record, and its answer decides. -/
theorem runFrom_issue {s : Service} (hs : s.connected = true) {options : IssueOptions}
    (ho : options.check = .ok ()) {bytes : Vector UInt8 s.policy.tokenLength}
    (hdrawn : o.random n s.policy.tokenLength = .ok bytes) {expiry : Option Instant}
    (hexpiry : s.policy.expiryFrom (o.clock (n + 1)) = .ok expiry) (w : World σ) :
    let record := s.issuedRecord options bytes.toList (o.clock (n + 1)) expiry
    (w.conversation driver o n (s.issue options).run).filterMap Exchange.call? = [.store record] ∧
      ∀ stored, (driver.answer (.store record) (o.clock (n + 2)) w.store).1 = .ok stored →
        (w.runFrom driver o n (s.issue options).run).1 =
          .ok ⟨PlainToken.format stored.id (s.secretOf bytes.toList), stored⟩ := by
  intro record
  -- after the bytes and the clock, the store is asked
  have hreply : w.reply driver o n (.randomBytes s.policy.tokenLength) = (.ok bytes, w) := by
    rw [← hdrawn]
    rfl
  have hlast : (s.afterClock options bytes.toList (o.clock (n + 1))
      (s.policy.expiryFrom (o.clock (n + 1)))).run =
        (keeping (s.secretOf bytes.toList) record).run := by
    rw [hexpiry, afterClock_ok]
  constructor
  · rw [issue_of_accepted hs ho, World.conversation_ask, hreply, afterDrawn, World.conversation_ask]
    change List.filterMap Exchange.call? (_ :: _ :: w.conversation driver o (n + 2)
      (s.afterClock options bytes.toList (o.clock (n + 1))
        (s.policy.expiryFrom (o.clock (n + 1)))).run) = _
    rw [hlast, keeping_eq, World.conversation_ask, List.filterMap_cons_none (by rfl),
      List.filterMap_cons_none (by rfl), List.filterMap_cons_some (by rfl)]
    -- an answered store ends the conversation
    cases (w.reply driver o (n + 2) (.store (.store record))).1 with
    | ok stored => rfl
    | error e => rfl
  · intro stored hstored
    have hanswer : (w.reply driver o (n + 2) (.store (.store record))).1 = .ok stored := hstored
    rw [runFrom_issue_of_drawn hs ho hdrawn, hlast, keeping_eq, World.runFrom_ask, hanswer]
    rfl

/-- **What an issued token is made of.** A policy has passed at some time, a request was accepted, bytes
were drawn, and a token is issued when the policy gives an expiry. Then there is a secret that is laid out
from the label of the policy and the bytes, and

* the store is asked for one thing, to keep a record of the digest of this secret, which no store has
  given an id yet, which was never used, and which was created and expires when the clock says;
* if the store answers with a record, this record is handed out with a text that has one separator, and
  that comes apart into the id of the record and the secret, with a scheme in front or without one. -/
theorem issued_tokens_are_consistent {p : Policy} {checked : Instant} (hp : p.check checked = .ok ())
    {options : IssueOptions} (ho : options.check = .ok ()) {bytes : Vector UInt8 p.tokenLength}
    (hdrawn : o.random 0 p.tokenLength = .ok bytes) {expiry : Option Instant}
    (hexpiry : p.expiryFrom (o.clock 1) = .ok expiry) (w : World σ) :
    let program := (issue { policy := p } options).run
    ∃ secret : String, Secret.IsLaidOut p.tokenPrefix bytes.toList secret ∧
      secret.toList.length = p.tokenPrefix.toList.length + 2 * p.tokenLength + 8 ∧
      let record : Record := {
        id := 0
        userId := options.userId
        digest := Secret.digest secret
        name := options.name
        abilities := Ability.join options.abilities
        createdAt := o.clock 1
        expiresAt := expiry
        lastUsedAt := none }
      (w.conversation driver o 0 program).filterMap Exchange.call? = [.store record] ∧
      ∀ stored, (driver.answer (.store record) (o.clock 2) w.store).1 = .ok stored →
        ∃ plain, (w.run driver o program).1 = .ok ⟨plain, stored⟩ ∧
          plain.toList.count tokenSeparator = 1 ∧
          PlainToken.parse plain = .ok ⟨Decimal.text stored.id, secret⟩ ∧
          PlainToken.parse (bearerScheme ++ plain) = .ok ⟨Decimal.text stored.id, secret⟩ := by
  intro program
  let s : Service := { policy := p }
  obtain ⟨hlength, hlabel⟩ := Policy.length_and_prefix_of_check hp
  have hcount : bytes.toList.length = p.tokenLength := Vector.length_toList
  -- the least length that a policy passes with is positive, so the secret has a body
  have hbytes : bytes.toList ≠ [] := by
    have hpos : 0 < Policy.leastTokenLength := by decide
    rw [← List.length_pos_iff]
    omega
  have hseparator : tokenSeparator ∉ (s.secretOf bytes.toList).toList :=
    separator_notMem_secretOf hlabel _
  have hlaid : Secret.IsLaidOut p.tokenPrefix bytes.toList (s.secretOf bytes.toList) :=
    Secret.isLaidOut_compose p.tokenPrefix hbytes
  obtain ⟨hasked, hanswered⟩ := runFrom_issue driver o 0 (s := s) rfl ho hdrawn hexpiry w
  refine ⟨s.secretOf bytes.toList, hlaid, ?_, hasked, ?_⟩
  · obtain ⟨digits, check, hparts, hdigits, -, hcheck, -⟩ := hlaid.parts
    rw [hparts, List.length_append, List.length_append, hdigits, hcheck, hcount]
    rfl
  · -- of the answer only the id is in the text, and it has no separator in it, even when it has a sign
    intro stored hstored
    refine ⟨_, hanswered stored hstored, PlainToken.count_separator_format stored.id hseparator,
      PlainToken.parse_format stored.id hseparator, ?_⟩
    rw [PlainToken.parse_bearer_format]
    exact PlainToken.parse_format stored.id hseparator

/-- A policy whose label looks like a scheme. -/
def bearerPolicy : Policy := { tokenLength := 16, tokenPrefix := "Bearer é" }

/-- A store that keeps whatever it is asked to keep under a negative id. -/
def negativeStore : Storage.Scripted := { store := .ok (-7) }

theorem issued_tokens_are_consistent_bearer :
    let o : Occasion := ⟨fun _ => .epoch, fun _ n => .ok (Vector.replicate n 0xAB)⟩
    let options : IssueOptions := { userId := 5, abilities := ["read:*"] }
    bearerPolicy.check .epoch = .ok () ∧ options.check = .ok () ∧
      bearerPolicy.expiryFrom .epoch = .ok (some ⟨86400, 0, by decide⟩) ∧
      ∃ secret plain stored, Secret.IsLaidOut "Bearer é" (List.replicate 16 0xAB) secret ∧
        (World.run Storage.Scripted.driver o (issue { policy := bearerPolicy } options).run
          { store := negativeStore }).1 = .ok ⟨plain, stored⟩ ∧
        PlainToken.parse plain = .ok ⟨"-7", secret⟩ := by
  intro o options
  have hp : bearerPolicy.check .epoch = .ok () := by decide
  have ho : options.check = .ok () := by decide
  have hexpiry : bearerPolicy.expiryFrom .epoch = .ok (some ⟨86400, 0, by decide⟩) := by decide
  obtain ⟨secret, hlaid, -, -, hanswered⟩ := issued_tokens_are_consistent Storage.Scripted.driver o hp ho rfl
    hexpiry { store := negativeStore }
  obtain ⟨plain, hrun, -, hparse, -⟩ := hanswered _ rfl
  exact ⟨hp, ho, hexpiry, secret, plain, _, hlaid, hrun, hparse⟩

end Service

end AccessTokens
