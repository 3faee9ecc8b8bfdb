import AccessTokens.Service.Client

/-!
# What the operations ask

Each operation of a client is a tree of requests, and here the trees are written out: what is asked
first, and what is asked next after each of the replies. A service that has a store
(`Service.connected`) asks

* to check a presented text: nothing of the store if the text is malformed, and otherwise the record
  of one digest (`inspect_of_wellFormed`), after which come the clock, or a warning and a refusal;
* to validate or to revoke: what checking asks, and after an accepted record one request more;
* to issue: random bytes, and when there are some the clock, and that one record be kept.

A client asks for its signal before all of this (`Client.unlessCancelled_eq`). Whether or not there is a
store, each function goes on in one way or refuses (`Refuses`, `inspect_cases`, `afterLookup_cases`,
`afterReading_cases`, `issue_cases`).
-/

namespace AccessTokens

open Time (Instant)

namespace Service

/-! ### Checking -/

/-- What checking a record with the right digest goes on with after the clock. -/
def afterReading (record : Record) (now : Instant) : Program (Except ServiceError Record) :=
  match record.expiresAt with
  | some expiry =>
    if expiry < now then
      .ask (.warn (.expiredAt record.id expiry)) fun _ => .done (.error .tokenExpired)
    else .done (.ok record)
  | none => .done (.ok record)

theorem afterReading_of_lt {record : Record} {now expiry : Instant} (he : record.expiresAt = some expiry)
    (hlt : expiry < now) : afterReading record now =
      .ask (.warn (.expiredAt record.id expiry)) fun _ => .done (.error .tokenExpired) := by
  rw [afterReading, he]
  exact if_pos hlt

theorem afterReading_of_expired {record : Record} {now : Instant}
    (h : record.isExpiredAt now = true) : ∃ expiry, afterReading record now =
      .ask (.warn (.expiredAt record.id expiry)) fun _ => .done (.error .tokenExpired) := by
  obtain ⟨expiry, he, hlt⟩ := Record.isExpiredAt_iff.1 h
  exact ⟨expiry, afterReading_of_lt he hlt⟩

theorem afterReading_of_live {record : Record} {now : Instant}
    (h : record.isExpiredAt now = false) : afterReading record now = .done (.ok record) := by
  rw [afterReading]
  cases he : record.expiresAt with
  | none => rfl
  | some expiry =>
    refine if_neg fun hlt => ?_
    rw [Record.isExpiredAt_iff.2 ⟨expiry, he, hlt⟩] at h
    cases h

theorem checkRecord_of_ne {digest : String} {record : Record} (h : record.digest ≠ digest) :
    (checkRecord digest record).run =
      .ask (.warn (.otherDigest record.id)) fun _ => .done (.error .tokenInvalid) := by
  rw [checkRecord, if_pos h]
  rfl

theorem checkRecord_of_eq {digest : String} {record : Record} (h : record.digest = digest) :
    (checkRecord digest record).run = .ask .clock (afterReading record) := by
  rw [checkRecord, if_neg (not_not_intro h)]
  rfl

/-- What checking a well-formed token goes on with after the answer of the store: a record is checked
further, and of the errors the two that tell of the token come with a warning. -/
def afterLookup (token : PlainToken) :
    Except StorageError Record → Program (Except ServiceError Record)
  | .ok record => (checkRecord (Secret.digest token.secret) record).run
  | .error .notFound => .ask (.warn (.unknown token.id)) fun _ => .done (.error .tokenNotFound)
  | .error .expired => .ask (.warn (.expired token.id)) fun _ => .done (.error .tokenExpired)
  | .error e => .done (.error (.storage e))

variable {s : Service} (hs : s.connected = true)

include hs

theorem inspect_of_malformed {raw : String} {e : PartCountError}
    (h : PlainToken.parse raw = .error e) :
    (s.inspect raw).run = .ask (.warn (.malformed e)) fun _ => .done (.error .invalidFormat) := by
  rw [inspect, requireStore, if_pos hs, h]
  rfl

theorem inspect_of_wellFormed {raw : String} {token : PlainToken}
    (h : PlainToken.parse raw = .ok token) :
    (s.inspect raw).run =
      .ask (.store (.findByDigest (Secret.digest token.secret))) (afterLookup token) := by
  rw [inspect, requireStore, if_pos hs, h]
  change Program.ask _ _ = _
  congr 1
  funext a
  cases a with
  | ok record =>
    -- neither side looks into the check that comes next
    rw [afterLookup]
    generalize checkRecord (Secret.digest token.secret) = check
    rfl
  | error e => cases e <;> rfl

omit hs

/-! ### Validating, revoking and issuing -/

/-- What validating goes on with after checking. -/
def afterValidated : Except ServiceError Record → Program (Except ServiceError Record)
  | .ok record => .ask (.touchLater record.id) fun _ => .done (.ok record)
  | .error e => .done (.error e)

/-- What revoking goes on with after checking. The digest is that of the record that was found, not one that
is computed from the text anew. -/
def afterRevocable : Except ServiceError Record → Program (Except ServiceError Unit)
  | .ok record =>
    .ask (.store (.revoke record.digest)) fun a => .done (a.mapError ServiceError.ofStorage)
  | .error e => .done (.error e)

theorem validate_eq (s : Service) (raw : String) :
    (s.validate raw).run = (s.inspect raw).run >>= afterValidated := by
  rw [validate]
  -- both sides check first, and go on in the same way from what that came to
  change (s.inspect raw).run >>= _ = _
  congr 1
  funext a
  cases a <;> rfl

theorem revoke_eq (s : Service) (raw : String) :
    (s.revoke raw).run = (s.inspect raw).run >>= afterRevocable := by
  rw [revoke]
  change (s.inspect raw).run >>= _ = _
  congr 1
  funext a
  cases a <;> rfl

theorem issue_of_refused (hs : s.connected = true) {o : IssueOptions} {e : OptionsError}
    (h : o.check = .error e) : (s.issue o).run = .done (.error (.invalidOptions e)) := by
  rw [issue, requireStore, if_pos hs, h]
  rfl

/-- The record that issuing asks the store to keep. -/
def issuedRecord (s : Service) (o : IssueOptions) (bytes : List UInt8) (now : Instant)
    (expiry : Option Instant) : Record :=
  Record.fresh o.userId (Secret.digest (s.secretOf bytes)) o.name o.abilities now expiry

/-- What issuing ends with: the store is asked to keep a record. The id of the token is the one that the
store answers, as the record had none. -/
def keeping (secret : String) (record : Record) : Action IssuedToken := do
  let stored ← Action.ofStore (Program.store (.store record))
  return ⟨PlainToken.format stored.id secret, stored⟩

/-- What issuing goes on with after the clock, which decides the expiry. -/
def afterClock (s : Service) (o : IssueOptions) (bytes : List UInt8) (now : Instant)
    (expiry : Except PolicyError (Option Instant)) : Action IssuedToken := do
  let expiry ← Action.ofExcept (expiry.mapError .invalidPolicy)
  keeping (s.secretOf bytes) (s.issuedRecord o bytes now expiry)

theorem keeping_eq (secret : String) (record : Record) :
    (keeping secret record).run = .ask (.store (.store record)) fun a =>
      match a with
      | .ok stored => .done (.ok ⟨PlainToken.format stored.id secret, stored⟩)
      | .error e => .done (.error (.ofStorage e)) := by
  -- the store is asked either way, and its answer is taken apart on the right only
  change Program.ask _ _ = Program.ask _ _
  congr 1
  funext a
  cases a <;> rfl

theorem afterClock_error (s : Service) (o : IssueOptions) (bytes : List UInt8) (now : Instant)
    (e : PolicyError) :
    (s.afterClock o bytes now (.error e)).run = .done (.error (.invalidPolicy e)) := rfl

theorem afterClock_ok (s : Service) (o : IssueOptions) (bytes : List UInt8) (now : Instant)
    (expiry : Option Instant) : s.afterClock o bytes now (.ok expiry) =
      keeping (s.secretOf bytes) (s.issuedRecord o bytes now expiry) := rfl

/-- What issuing goes on with after the random source: the clock, or a refusal. A source that has failed
ends it with its cause, before the clock was read and before the store was asked. -/
def afterDrawn (s : Service) (o : IssueOptions) :
    Drawn s.policy.tokenLength → Program (Except ServiceError IssuedToken)
  | .ok bytes => .ask .clock fun now =>
    (s.afterClock o bytes.toList now (s.policy.expiryFrom now)).run
  | .error cause => .done (.error (.randomSource cause))

theorem issue_of_accepted (hs : s.connected = true) {o : IssueOptions} (h : o.check = .ok ()) :
    (s.issue o).run = .ask (.randomBytes s.policy.tokenLength) (s.afterDrawn o) := by
  -- the bytes are bound by whatever comes next, so this is said for any program behind them
  have hdraw {n : Nat} (f : Vector UInt8 n → Action IssuedToken) :
      (do f (← Action.ofSource (Program.randomBytes n)) : Action IssuedToken).run =
        .ask (.randomBytes n) fun drawn =>
          match drawn with
          | .ok bytes => (f bytes).run
          | .error cause => .done (.error (.randomSource cause)) := by
    change Program.ask _ _ = Program.ask _ _
    congr 1
    funext drawn
    cases drawn <;> rfl
  rw [issue, requireStore, if_pos hs, h]
  refine (hdraw fun bytes => do
    let now ← Program.clock
    s.afterClock o bytes.toList now (s.policy.expiryFrom now)).trans ?_
  congr 1
  funext drawn
  cases drawn <;> rfl

/-! ### Without a store -/

theorem issue_of_unconnected {s : Service} (hs : s.connected = false) (o : IssueOptions) :
    (s.issue o).run = .done (.error .noStore) := by
  rw [issue, requireStore, hs]
  rfl

theorem inspect_of_unconnected {s : Service} (hs : s.connected = false) (raw : String) :
    (s.inspect raw).run = .done (.error .noStore) := by
  rw [inspect, requireStore, hs]
  rfl

/-! ### The ways to go on -/

/-- A program that refuses, and warns before if at all. Many facts about the operations hold of any refusal,
and are then left with the one way to go on. -/
inductive Refuses {α : Type} : Program (Except ServiceError α) → Prop
  | silently (e : ServiceError) : Refuses (.done (.error e))
  | warning (w : Warning) (e : ServiceError) : Refuses (.ask (.warn w) fun _ => .done (.error e))

theorem afterReading_cases (record : Record) (now : Instant) :
    Refuses (afterReading record now) ∨ afterReading record now = .done (.ok record) := by
  cases h : record.isExpiredAt now with
  | true =>
    obtain ⟨expiry, hr⟩ := afterReading_of_expired h
    exact .inl (hr ▸ .warning _ _)
  | false => exact .inr (afterReading_of_live h)

/-- After the answer of the store, checking goes on with a record that has the right digest, or it
refuses. -/
theorem afterLookup_cases (token : PlainToken) (a : Except StorageError Record) :
    Refuses (afterLookup token a) ∨
      ∃ record, a = .ok record ∧ record.digest = Secret.digest token.secret ∧
        afterLookup token a = .ask .clock (afterReading record) := by
  cases a with
  | error e =>
    cases e with
    | notFound => exact .inl (.warning _ _)
    | expired => exact .inl (.warning _ _)
    | _ => exact .inl (.silently _)
  | ok record =>
    rw [afterLookup]
    by_cases hd : record.digest = Secret.digest token.secret
    · exact .inr ⟨record, rfl, hd, checkRecord_of_eq hd⟩
    · exact .inl (checkRecord_of_ne hd ▸ .warning _ _)

/-- Checking a text asks for the record of the digest that the text is of, or refuses. Its other part, the
id, decides nothing. -/
theorem inspect_cases (s : Service) (raw : String) :
    Refuses (s.inspect raw).run ∨ ∃ token, PlainToken.parse raw = .ok token ∧
      (s.inspect raw).run =
        .ask (.store (.findByDigest (Secret.digest token.secret))) (afterLookup token) := by
  cases hs : s.connected with
  | false => exact .inl (inspect_of_unconnected hs raw ▸ .silently _)
  | true =>
    cases hraw : PlainToken.parse raw with
    | error e => exact .inl (inspect_of_malformed hs hraw ▸ .warning _ _)
    | ok token => exact .inr ⟨token, rfl, inspect_of_wellFormed hs hraw⟩

/-- Issuing asks for random bytes, or refuses without having asked for anything. It refuses when it has no
store or when the options do not pass, in this order. -/
theorem issue_cases (s : Service) (o : IssueOptions) :
    (∃ e, (s.issue o).run = .done (.error e)) ∨
      (s.issue o).run = .ask (.randomBytes s.policy.tokenLength) (s.afterDrawn o) := by
  cases hs : s.connected with
  | false => exact .inl ⟨_, issue_of_unconnected hs o⟩
  | true =>
    cases ho : o.check with
    | error e => exact .inl ⟨_, issue_of_refused hs ho⟩
    | ok _ => exact .inr (issue_of_accepted hs ho)

end Service

/-! ### Clients -/

theorem Client.unlessCancelled_eq {α : Type} (c : Client) (a : Action α) :
    (c.unlessCancelled a).run = .ask (.isCancelled c.signal) fun given =>
      if given then .done (.error .cancelled) else a.run := by
  rw [unlessCancelled]
  change Program.ask _ _ = _
  congr 1

end AccessTokens
