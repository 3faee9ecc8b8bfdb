import AccessTokens.Proofs.PlainToken.Reading
import AccessTokens.Proofs.Service.Conversation
import AccessTokens.Service.Builder

/-!
# Issuing a token

What is handed to the holder of a token is the id of the record and the secret with a separator between
them, and it comes apart into the two again (`PlainToken.parse_format`) because there is no separator in the
secret: none is in the digits of a secret and its checksum, or in a prefix that a policy passes with
(`Service.separator_notMem_secretOf`).

An issued token has exactly one origin: the store was asked to keep the record of the digest of a fresh
secret, with the expiry that the policy gives at the reading of the clock, and answered with the record
that is handed out (`Service.origin_of_issue`).
-/

namespace AccessTokens

open Time (Instant)

/-- A policy that passes has a length that is long enough, and a prefix without a separator of tokens. The
rest of what passing means is of no concern to the text of a token. -/
theorem Policy.length_and_prefix_of_check {p : Policy} {now : Instant} (h : p.check now = .ok ()) :
    leastTokenLength ≤ p.tokenLength ∧ tokenSeparator ∉ p.tokenPrefix.toList := by
  unfold check at h
  -- the checks that come before may have refused, and these two did not
  cases hsigning : p.checkSigning with
  | error e =>
    rw [hsigning] at h
    cases h
  | ok _ =>
    rw [hsigning] at h
    by_cases hlength : p.tokenLength < leastTokenLength
    · rw [if_pos hlength] at h
      cases h
    · refine ⟨Nat.le_of_not_lt hlength, ?_⟩
      intro hmem
      have hlabel : p.tokenPrefix.toList.contains tokenSeparator = true := by simpa using hmem
      rw [if_neg hlength, hlabel] at h
      cases h

theorem Policy.separator_notMem_of_check {p : Policy} {now : Instant} (h : p.check now = .ok ()) :
    tokenSeparator ∉ p.tokenPrefix.toList := (length_and_prefix_of_check h).2

/-- A client that was built has a policy that passes and a store. Its policy is the one that the steps have
set, whatever else they brought. -/
theorem Builder.service_of_build {b : Builder} {now : Instant} {signal : Signal} {c : Client}
    (h : b.build now signal = .ok c) :
    b.policy.check now = .ok () ∧ c.service = { policy := b.policy } := by
  rw [build] at h
  cases hcheck : b.policy.check now with
  | error e =>
    rw [hcheck] at h
    cases h
  | ok _ =>
    rw [hcheck] at h
    cases h
    exact ⟨rfl, rfl⟩

namespace Service

theorem separator_notMem_secretOf {s : Service} (h : tokenSeparator ∉ s.policy.tokenPrefix.toList)
    (bytes : List UInt8) : tokenSeparator ∉ (s.secretOf bytes).toList := by
  have hdigit : Hex.isDigit tokenSeparator = false := by decide
  intro hmem
  rw [secretOf, Secret.compose, String.toList_append, String.toList_append, List.mem_append,
    List.mem_append, String.toList_ofList, String.toList_ofList] at hmem
  -- a character of a secret comes from the label, the body or the checksum
  rcases hmem with (hlabel | hbody) | hchecksum
  · exact h hlabel
  · rw [Hex.isDigit_of_mem_ofBytes hbody] at hdigit
    cases hdigit
  · rw [Hex.isDigit_of_mem_ofWord hchecksum] at hdigit
    cases hdigit

/-! ### The record of a token -/

variable {σ : Type} {driver : Storage.Driver σ} {o : Occasion} {n : Nat} {w : World σ}

theorem origin_of_keeping {secret : String} {record : Record} {issued : IssuedToken}
    (h : (w.runFrom driver o n (keeping secret record).run).1 = .ok issued) :
    let kept := driver.answer (.store record) (o.clock n) w.store
    kept.1 = .ok issued.record ∧ issued.plainText = PlainToken.format issued.record.id secret ∧
      (w.runFrom driver o n (keeping secret record).run).2.store = kept.2 := by
  intro kept
  have hreply : (w.reply driver o n (.store (.store record))).1 = kept.1 := rfl
  have hstore : (w.reply driver o n (.store (.store record))).2.store = kept.2 := rfl
  -- the answer of the store decides, and it was not an error because a token came of it
  rw [keeping_eq, World.runFrom_ask, hreply] at h ⊢
  cases hanswer : kept.1 with
  | error e =>
    rw [hanswer] at h
    cases h
  | ok stored =>
    rw [hanswer] at h
    cases h
    exact ⟨rfl, rfl, hstore⟩

/-- Bytes that were drawn leave the world as it was, and so does the clock that is read next. What is left
to do is to compute the expiry and to ask the store to keep the record. -/
theorem runFrom_issue_of_drawn {s : Service} (hs : s.connected = true) {options : IssueOptions}
    (ho : options.check = .ok ()) {bytes : Vector UInt8 s.policy.tokenLength}
    (hdrawn : o.random n s.policy.tokenLength = .ok bytes) :
    w.runFrom driver o n (s.issue options).run =
      w.runFrom driver o (n + 2) (s.afterClock options bytes.toList (o.clock (n + 1))
        (s.policy.expiryFrom (o.clock (n + 1)))).run := by
  have hreply : w.reply driver o n (.randomBytes s.policy.tokenLength) = (.ok bytes, w) := by
    rw [← hdrawn]
    rfl
  rw [issue_of_accepted hs ho, World.runFrom_ask, hreply, afterDrawn, World.runFrom_ask]
  rfl

/-- **Without random bytes there is no token.** When they cannot be drawn, issuing fails in the words of
their source, and nothing has happened in the world: no secret was made of anything else. -/
theorem runFrom_issue_of_undrawn {s : Service} (hs : s.connected = true) {options : IssueOptions}
    (ho : options.check = .ok ()) {cause : String}
    (hdrawn : o.random n s.policy.tokenLength = .error cause) :
    w.runFrom driver o n (s.issue options).run = (.error (.randomSource cause), w) := by
  have hreply : w.reply driver o n (.randomBytes s.policy.tokenLength) = (.error cause, w) := by
    rw [← hdrawn]
    rfl
  rw [issue_of_accepted hs ho, World.runFrom_ask, hreply]
  rfl

/-- **Where an issued token comes from.** Bytes were drawn, the policy gave an expiry for the reading of the
clock, and the store was asked to keep the record made of the two. It answered with the record that is
handed out, and the state that the store was left in is the state after that one call. -/
theorem origin_of_issue {s : Service} (hs : s.connected = true) {options : IssueOptions}
    {issued : IssuedToken} (h : (w.runFrom driver o n (s.issue options).run).1 = .ok issued) :
    ∃ bytes expiry, o.random n s.policy.tokenLength = .ok bytes ∧
      s.policy.expiryFrom (o.clock (n + 1)) = .ok expiry ∧
      let kept := driver.answer
        (.store (s.issuedRecord options bytes.toList (o.clock (n + 1)) expiry)) (o.clock (n + 2)) w.store
      kept.1 = .ok issued.record ∧
        issued.plainText = PlainToken.format issued.record.id (s.secretOf bytes.toList) ∧
        (w.runFrom driver o n (s.issue options).run).2.store = kept.2 := by
  -- nothing refused on the way: not the options, not the source, and not the policy
  cases hcheck : options.check with
  | error e =>
    rw [issue_of_refused hs hcheck] at h
    cases h
  | ok _ =>
    cases hdrawn : o.random n s.policy.tokenLength with
    | error cause =>
      rw [runFrom_issue_of_undrawn hs hcheck hdrawn] at h
      cases h
    | ok bytes =>
      rw [runFrom_issue_of_drawn hs hcheck hdrawn] at h ⊢
      cases hexpiry : s.policy.expiryFrom (o.clock (n + 1)) with
      | error e =>
        rw [hexpiry, afterClock_error] at h
        cases h
      | ok expiry =>
        rw [hexpiry, afterClock_ok] at h
        have horigin := origin_of_keeping h
        rw [← afterClock_ok] at horigin
        exact ⟨bytes, expiry, rfl, rfl, horigin⟩

end Service

end AccessTokens
