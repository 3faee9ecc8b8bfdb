import AccessTokens.Proofs.Policy.Expiry
import AccessTokens.Proofs.Service.Checking
import AccessTokens.Proofs.Service.Issuing
import AccessTokens.Proofs.Storage.StoredRow

/-!
# Issued tokens on a database

A policy is passed when the expiry that it gives is in the calendar, which ends in the year 262142. A
database writes that expiry as text, and reads back the years 0 to 9999 only. So a client that was built
may issue a token that nobody can use: the row is there, but its expiry cannot be read.

`issued_tokens_read_back` tells the two cases apart for every client and every state of the database. The
instants of the record that was issued are the clock and a lifetime after it, and where a text says the one
it says the other (`Policy.isWritable_of_expiryFrom`). The record stays in its row while calls spare it
(`Table.Keeps`), the text that was handed out comes apart into the secret whose digest is in that row
(`PlainToken.parse_format`), and what validating makes of it is what the row reads as
(`Service.runFrom_validate_kept`).
-/

namespace AccessTokens

open Time (Instant)
open Storage (Call Change Database)

variable {σ α : Type} {driver : Storage.Driver σ} {o : Occasion} {n : Nat}

/-! ### The instants of an issued token -/

/-- A sum has a text of its own if the instant that was added to has one: it is in the same leap second,
or in none. -/
theorem Time.Instant.isWritable_of_add? {t u : Instant} {d : Time.Duration} (ht : t.IsWritable)
    (h : t.add? d = some u) : u.IsWritable := by
  unfold add? at h
  split at h
  · next hleap =>
    -- the leap second prolongs the last second of a minute, and the sum stays in it
    obtain ⟨hseconds, -⟩ := ofParts?_eq_some_iff.1 h
    have hlast : t.seconds % 60 = 59 := ht.resolve_left (Nat.not_lt.2 hleap.1)
    exact .inr (hseconds ▸ hlast)
  -- otherwise the sum has the fraction of a plain second
  · obtain ⟨-, hnanos⟩ := ofParts?_eq_some_iff.1 h
    refine .inl ?_
    rw [hnanos]
    exact Nat.mod_lt _ (by decide)

theorem Policy.isWritable_of_expiryFrom {p : Policy} {now expiry : Instant} (hnow : now.IsWritable)
    (h : p.expiryFrom now = .ok (some expiry)) : expiry.IsWritable := by
  rcases p.expiryFrom_cases now with ⟨-, hanswer⟩ | ⟨-, -, sum, hsum, hanswer⟩ | ⟨-, -, hanswer⟩
  all_goals
    rw [hanswer] at h
    cases h
  exact Instant.isWritable_of_add? hnow hsum

/-! ### Clients -/

namespace Client

variable {c : Client} {w : World σ}

/-- A client whose signal was not given does what its service does, one request later. The signal is the
first thing that it asks for. So a reading of the clock has a place that is one further on. -/
theorem runFrom_unlessCancelled (hc : c.signal ∉ w.cancelled) (a : Action α) :
    w.runFrom driver o n (c.unlessCancelled a).run = w.runFrom driver o (n + 1) a.run := by
  have hgiven : (w.reply driver o n (.isCancelled c.signal)).1 = false := by
    change w.cancelled.contains c.signal = false
    simpa using hc
  rw [unlessCancelled_eq, World.runFrom_ask, hgiven]
  rfl

theorem signal_notMem_of_ok {a : Action α} {x : α}
    (h : (w.runFrom driver o n (c.unlessCancelled a).run).1 = .ok x) : c.signal ∉ w.cancelled := by
  intro hc
  have hgiven : (w.reply driver o n (.isCancelled c.signal)).1 = true := by
    change w.cancelled.contains c.signal = true
    simpa using hc
  rw [unlessCancelled_eq, World.runFrom_ask, hgiven] at h
  cases h

end Client

/-- A token whose record is in its row passes, or fails because its expiry cannot be read. Which of the two
it is does not depend on the clock, as long as the token is not expired. -/
theorem Service.runFrom_validate_kept {s : Service} (hs : s.connected = true) {raw : String}
    {token : PlainToken} (hraw : PlainToken.parse raw = .ok token) {r : Record}
    (hdigest : r.digest = Secret.digest token.secret) (hcreated : r.createdAt.ReadsBack)
    (hwritable : ∀ e, r.expiresAt = some e → e.IsWritable) {w : World Database} {t : Storage.Table}
    (hw : w.store = ⟨some t⟩) (ht : t.Keeps r)
    (hclock : o.clock n ≤ o.clock (n + 1)) (hlive : r.isExpiredAt (o.clock (n + 1)) = false) :
    let answer := (w.runFrom Database.driver o n (s.validate raw).run).1
    ((∀ e, r.expiresAt = some e → e.HasPlainYear) →
        ∃ used, answer = .ok { r with lastUsedAt := used }) ∧
      ∀ e, r.expiresAt = some e → ¬ e.HasPlainYear →
        answer = .error (.storage (.database "Invalid expires_at timestamp")) := by
  intro answer
  -- checking weighs what the lookup by the digest comes to
  have hanswer : answer =
      weigh token (o.clock (n + 1)) (Database.findByDigest r.digest (o.clock n) ⟨some t⟩) := by
    have hinspect := runFrom_inspect Database.driver o n hs hraw w
    rw [hw, ← hdigest] at hinspect
    exact (runFrom_validate Database.driver o n s raw w).trans hinspect
  rw [hanswer]
  constructor
  · intro hplain
    obtain ⟨used, hfind⟩ := ht.findByDigest hcreated (fun e he => ⟨hplain e he, hwritable e he⟩)
      (o.clock n)
    -- the record is not expired later, so it is not expired when the store looks
    have hfound : Storage.unexpired { r with lastUsedAt := used } (o.clock n) =
        .ok { r with lastUsedAt := used } := by
      refine if_neg fun he => ?_
      have hlater : r.isExpiredAt (o.clock (n + 1)) = true := Record.isExpiredAt_mono hclock he
      rw [hlive] at hlater
      cases hlater
    refine ⟨used, ?_⟩
    rw [hfind, hfound]
    exact weigh_eq_ok_iff.2 ⟨rfl, hdigest, hlive⟩
  · intro e he hplain
    rw [ht.findByDigest_unreadable hcreated.1 he hplain]
    rfl

/-- **When an issued token can be used.** A client was built, its database is in any state that calls
have brought it to, and it issued a token at a reading of the clock that a row keeps: a year of four digits,
and no leap second within a minute, which clocks do not show. Calls were made after that, and none of them
revoked the token or touched a record at an instant with another year. The token is then presented to a
clone whose signal was not given, while it is not expired.

Its expiry is the one that the policy gives for the time it was issued. If the token never expires, or its
expiry has a plain year, it passes, with the record that was issued but for the time of its last use, and
otherwise it does not pass: the expiry in its row cannot be read. -/
theorem issued_tokens_read_back {b : Builder} {built : Instant} {signal : Signal} {c : Client}
    (hbuild : b.build built signal = .ok c) (asked : List (Call × Instant)) {w w₁ w₂ : World Database}
    (hw : w.store = (Database.driver.run asked Database.empty).2) {options : IssueOptions}
    {issued : IssuedToken} (hissue : w.run Database.driver o (c.issue options).run = (.ok issued, w₁))
    (hnow : (o.clock 2).ReadsBack) (later : List (Call × Instant))
    (hlater : ∀ x ∈ (Database.driver.run later w₁.store).1, x.Spares issued.record.digest)
    (hw₂ : w₂.store = (Database.driver.run later w₁.store).2) {signal' : Signal}
    (hsignal : signal' ∉ w₂.cancelled) {o' : Occasion} (hclock : o'.clock 1 ≤ o'.clock 2)
    (hlive : issued.record.isExpiredAt (o'.clock 2) = false) :
    let answer :=
      (w₂.run Database.driver o' ((c.observing signal').validate issued.plainText).run).1
    c.service.policy.expiryFrom (o.clock 2) = .ok issued.record.expiresAt ∧
      ((∃ used, answer = .ok { issued.record with lastUsedAt := used }) ↔
        ∀ e, issued.record.expiresAt = some e → e.HasPlainYear) ∧
      ((∃ e, issued.record.expiresAt = some e ∧ ¬ e.HasPlainYear) →
        answer = .error (.storage (.database "Invalid expires_at timestamp"))) := by
  intro answer
  obtain ⟨hcheck, hservice⟩ := Builder.service_of_build hbuild
  have hs : c.service.connected = true := by rw [hservice]
  have hlabel : tokenSeparator ∉ c.service.policy.tokenPrefix.toList := by
    rw [hservice]
    exact Policy.separator_notMem_of_check hcheck
  -- the client was not cancelled, since it issued a token
  have hgiven := Client.signal_notMem_of_ok (congrArg Prod.fst hissue)
  have hrun : w.run Database.driver o (c.issue options).run =
      w.runFrom Database.driver o 1 (c.service.issue options).run :=
    Client.runFrom_unlessCancelled hgiven _
  rw [hrun] at hissue
  -- what was issued, and what the store was asked to keep
  obtain ⟨bytes, expiry, -, hexpiry, hkept, htext, hw₁⟩ :=
    Service.origin_of_issue hs (congrArg Prod.fst hissue)
  rw [hissue] at hw₁
  obtain ⟨t, ht, hnumbered⟩ := Database.run_numbered asked
  rw [hw, ht] at hkept hw₁
  obtain ⟨hrecord, t₁, ht₁, hkeeps₁⟩ := hnumbered.sound.keeps_of_store hkept (by rintro _ ⟨⟩)
  have hstore₁ : w₁.store = ⟨some t₁⟩ := hw₁.trans ht₁
  rw [hstore₁] at hlater hw₂
  obtain ⟨t₂, ht₂, hkeeps₂⟩ := hkeeps₁.run later hlater
  -- the expiry in the row has a text of its own if the reading of the clock has one
  have hexpires : issued.record.expiresAt = expiry := by
    rw [hrecord]
    rfl
  have hwritable : ∀ e, issued.record.expiresAt = some e → e.IsWritable := by
    intro e he
    rw [hexpires] at he
    exact Policy.isWritable_of_expiryFrom hnow.2 (he ▸ hexpiry)
  -- what is presented, and what comes of it
  have hparse := PlainToken.parse_format issued.record.id
    (Service.separator_notMem_secretOf hlabel bytes.toList)
  rw [← htext] at hparse
  have hanswer : answer =
      (w₂.runFrom Database.driver o' 1 (c.service.validate issued.plainText).run).1 :=
    congrArg Prod.fst (Client.runFrom_unlessCancelled (c := c.observing signal') hsignal _)
  obtain ⟨hreadable, hunreadable⟩ := Service.runFrom_validate_kept hs hparse
    (by rw [hrecord]; rfl) (by rw [hrecord]; exact hnow) hwritable (hw₂.trans ht₂) hkeeps₂ hclock hlive
  rw [← hanswer] at hreadable hunreadable
  refine ⟨hexpires ▸ hexpiry, ⟨?_, hreadable⟩, ?_⟩
  · rintro ⟨used, hok⟩ e he
    by_contra hplain
    rw [hunreadable e he hplain] at hok
    cases hok
  · rintro ⟨e, he, hplain⟩
    exact hunreadable e he hplain

/-- A builder that was told how many seconds a token lives. -/
def builderOf (lifetime : Nat) : Builder := .ofSteps [.expiration (.ofSeconds lifetime)]

def clientOf (lifetime : Nat) : Client where
  service := { policy := (builderOf lifetime).policy }
  signal := 0

/-- An occasion on which the clock stands still and every random byte is zero. -/
def firstOccasion : Occasion where
  clock _ := .epoch
  random _ count := .ok (Vector.replicate count 0)

/-- What comes of issuing a token on an empty database. -/
def issuedBy (lifetime : Nat) : Except ServiceError IssuedToken × World Database :=
  ({ store := Database.empty } : World Database).run Database.driver firstOccasion
    ((clientOf lifetime).issue { userId := 1 }).run

/-- The token that is issued then. -/
def firstToken (expiry : Instant) : IssuedToken :=
  let secret := ({} : Service).secretOf (List.replicate 32 0)
  { plainText := "1|" ++ secret
    record := { Record.fresh 1 (Secret.digest secret) none [] .epoch (some expiry) with id := 1 } }

theorem issued_tokens_read_back_oneDay :
    let token := firstToken ⟨86400, 0, by decide⟩
    (builderOf 86400).build .epoch 0 = .ok (clientOf 86400) ∧ (issuedBy 86400).1 = .ok token ∧
      Instant.epoch.ReadsBack ∧ token.record.isExpiredAt .epoch = false ∧
      ∃ used, ((issuedBy 86400).2.run Database.driver firstOccasion
        (((clientOf 86400).observing 0).validate token.plainText).run).1 =
          .ok { token.record with lastUsedAt := used } := by
  intro token
  have hbuild : (builderOf 86400).build .epoch 0 = .ok (clientOf 86400) := rfl
  have hissue : (issuedBy 86400).1 = .ok token := by decide +kernel
  have hepoch : Instant.epoch.ReadsBack := by decide +kernel
  have hlive : token.record.isExpiredAt .epoch = false := by decide
  have hplain : ∀ e, token.record.expiresAt = some e → e.HasPlainYear := by
    intro e he
    obtain rfl : ⟨86400, 0, by decide⟩ = e := Option.some.inj he
    decide +kernel
  have hrun : ({ store := Database.empty } : World Database).run Database.driver firstOccasion
      ((clientOf 86400).issue { userId := 1 }).run = (.ok token, (issuedBy 86400).2) :=
    Prod.ext hissue rfl
  have hlater : ∀ x ∈ (Database.driver.run [] (issuedBy 86400).2.store).1,
      x.Spares token.record.digest := by
    rw [Storage.Driver.run_nil]
    simp
  have hsignal : 0 ∉ (issuedBy 86400).2.cancelled := by decide +kernel
  have hclock : firstOccasion.clock 1 ≤ firstOccasion.clock 2 := Instant.le_refl _
  have hback := issued_tokens_read_back hbuild [] rfl hrun hepoch [] hlater rfl hsignal hclock hlive
  exact ⟨hbuild, hissue, hepoch, hlive, hback.2.1.2 hplain⟩

/-- A lifetime of nine and a half thousand years is a good policy, and its tokens cannot be used. The expiry
has a year of five digits. The row takes it, and nobody can read the row after that. -/
theorem issued_token_unreadable :
    let token := firstToken ⟨300000000000, 0, by decide⟩
    (builderOf 300000000000).build .epoch 0 = .ok (clientOf 300000000000) ∧
      (issuedBy 300000000000).1 = .ok token ∧ token.record.isExpiredAt .epoch = false ∧
      ((issuedBy 300000000000).2.run Database.driver firstOccasion
        (((clientOf 300000000000).observing 0).validate token.plainText).run).1 =
          .error (.storage (.database "Invalid expires_at timestamp")) := by
  intro token
  have hissue : (issuedBy 300000000000).1 = .ok token := by decide +kernel
  have hvalidate : ((issuedBy 300000000000).2.run Database.driver firstOccasion
      (((clientOf 300000000000).observing 0).validate token.plainText).run).1 =
        .error (.storage (.database "Invalid expires_at timestamp")) := by
    decide +kernel
  exact ⟨rfl, hissue, by decide, hvalidate⟩

end AccessTokens
