import AccessTokens.Proofs.PlainToken.Reading
import AccessTokens.Proofs.Service.Conversation
import AccessTokens.Storage.Scripted
import Mathlib.Data.List.Forall2

/-!
# Warnings of rejected tokens

A presented token is rejected (`ServiceError.IsRejection`) when it is malformed, unknown, expired or another
one than the store came back with. Every rejection is warned of once, and nothing else is
(`rejections_warn_once`).

`Rejects` lists the five ways in which a check rejects a text, each with what the store had answered until
then and the warning that it gives. `IsWarned` says of a conversation that it ended with a rejection and its
one warning, or with no rejection and none; every conversation of a check is of this kind, whoever replies
(`Service.isWarned_inspect`, `Service.isWarned_validate`).

What a warning may tell is said of two checks, of different texts, on different stores and at different times.
Texts have the same outline (`PlainToken.SameOutline`) when they are no tokens and have equally many parts,
or are tokens with the same id; answers of stores have the same outline (`Storage.SameOutline`) when both
are errors, or both are records with the same id and expiry. Two rejections with the same error, of texts with
the same outline and after answers with the same outline, give the same warning (`Rejects.warning_unique`).
An error and whether there was a record tell which check it was that rejected. So the warning tells nothing of
secrets and digests: these are in no outline.
-/

namespace AccessTokens

open Time (Instant)

/-! ### What is told apart -/

/-- An error that rejects a presented token. The others are of the service or its store. -/
def ServiceError.IsRejection : ServiceError → Prop
  | .invalidFormat | .tokenNotFound | .tokenExpired | .tokenInvalid => True
  | _ => False

/-- Two texts are no tokens and have equally many parts, or are tokens with the same id. -/
inductive PlainToken.SameOutline (raw raw' : String) : Prop
  | malformed {body body' : String} (h : Body raw body) (h' : Body raw' body')
    (hparts : body.toList.count tokenSeparator ≠ 1)
    (hsame : body.toList.count tokenSeparator = body'.toList.count tokenSeparator)
  | wellFormed {body body' : String} {t t' : PlainToken} (h : Body raw body) (h' : Body raw' body')
    (hjoined : IsJoined body t) (hjoined' : IsJoined body' t') (hsame : t.id = t'.id)

/-- Two answers of stores are errors, or are records with the same id and expiry. Which error it was is not
compared here: it shows in the error of the check, if it rejects. -/
inductive Storage.SameOutline : Except StorageError Record → Except StorageError Record → Prop
  | refused (e e' : StorageError) : SameOutline (.error e) (.error e')
  | found {r r' : Record} (hid : r.id = r'.id) (hexpiry : r.expiresAt = r'.expiresAt) :
    SameOutline (.ok r) (.ok r')

theorem PlainToken.SameOutline.parse_cases {raw raw' : String} (h : PlainToken.SameOutline raw raw') :
    (∃ e, PlainToken.parse raw = .error e ∧ PlainToken.parse raw' = .error e) ∨
      ∃ t t', PlainToken.parse raw = .ok t ∧ PlainToken.parse raw' = .ok t' ∧ t.id = t'.id := by
  cases h with
  | @malformed body body' h h' hparts hsame =>
    -- a text comes apart into one part more than it has separators, and the error tells the number of parts
    have hnone {body : String} (hparts : body.toList.count tokenSeparator ≠ 1) :
        ¬ ∃ t, IsJoined body t := by
      rw [exists_isJoined_iff, Text.length_pieces]
      omega
    refine .inl ⟨_, parse_eq_error h (hnone hparts), ?_⟩
    rw [hsame] at hparts ⊢
    exact parse_eq_error h' (hnone hparts)
  | wellFormed h h' hjoined hjoined' hsame =>
    exact .inr ⟨_, _, (parse_eq_ok_iff h).2 hjoined, (parse_eq_ok_iff h').2 hjoined', hsame⟩

/-! ### Warnings in a conversation -/

/-- The warning that was emitted, if one was. -/
def Exchange.warning? : Exchange → Option Warning
  | ⟨.warn v, _⟩ => some v
  | _ => none

/-- What the store answered when it was asked for the record of a digest. -/
def Exchange.found? : Exchange → Option (Except StorageError Record)
  | ⟨.store (.findByDigest _), a⟩ => some a
  | _ => none

/-- The warning among the events, if it is one. -/
def Event.warning? : Event → Option Warning
  | .warning v => some v
  | .storeFailed => none

/-- A check rejects a text with an error, after what the store answered, and gives a warning. There is one
constructor for each place at which a check may reject, with what is known there. -/
inductive Rejects (raw : String) :
    List (Except StorageError Record) → ServiceError → Warning → Prop
  | malformed {e : PartCountError} (h : PlainToken.parse raw = .error e) :
    Rejects raw [] .invalidFormat (.malformed e)
  | unknown {t : PlainToken} (h : PlainToken.parse raw = .ok t) :
    Rejects raw [.error .notFound] .tokenNotFound (.unknown t.id)
  | expired {t : PlainToken} (h : PlainToken.parse raw = .ok t) :
    Rejects raw [.error .expired] .tokenExpired (.expired t.id)
  | otherDigest (r : Record) : Rejects raw [.ok r] .tokenInvalid (.otherDigest r.id)
  | expiredAt {r : Record} {expiry : Instant} (h : r.expiresAt = some expiry) :
    Rejects raw [.ok r] .tokenExpired (.expiredAt r.id expiry)

/-- A conversation ended with a rejection and its one warning, or with no rejection and no warning. -/
inductive IsWarned (raw : String) (xs : List Exchange) (a : Except ServiceError Record) : Prop
  | rejected {e : ServiceError} {v : Warning} (ha : a = .error e)
    (h : Rejects raw (xs.filterMap Exchange.found?) e v)
    (hone : xs.filterMap Exchange.warning? = [v])
  | silent (ha : ∀ e, a = .error e → ¬ e.IsRejection) (hnone : xs.filterMap Exchange.warning? = [])

variable {raw raw' : String} {xs ys : List Exchange}

theorem Rejects.isRejection {found : List (Except StorageError Record)} {e : ServiceError} {v : Warning}
    (h : Rejects raw found e v) : e.IsRejection := by
  cases h <;> trivial

/-- **Warnings tell no more than the outlines.** Two rejections with the same error, of texts and answers
with the same outlines, have the same warning, so that neither a secret nor a digest can be in it. -/
theorem Rejects.warning_unique {found found' : List (Except StorageError Record)} {e : ServiceError}
    {v v' : Warning} (h : Rejects raw found e v) (h' : Rejects raw' found' e v')
    (hraw : PlainToken.SameOutline raw raw') (hfound : List.Forall₂ Storage.SameOutline found found') :
    v = v' := by
  -- where both texts are tokens they have the same id, so a warning that names it is the same
  have hid {t t' : PlainToken} (ht : PlainToken.parse raw = .ok t)
      (ht' : PlainToken.parse raw' = .ok t') : t.id = t'.id := by
    rcases hraw.parse_cases with ⟨_, he, -⟩ | ⟨_, _, hok, hok', hsame⟩
    · cases he.symm.trans ht
    · cases hok.symm.trans ht
      cases hok'.symm.trans ht'
      exact hsame
  -- the error leaves the same check for both, or two checks for `tokenExpired`: the store said it of the
  -- digest, or the service said it of the record, and answers with the same outline tell these apart
  cases h with
  | malformed he =>
    cases h' with
    | malformed he' =>
      rcases hraw.parse_cases with ⟨_, hn, hn'⟩ | ⟨_, _, hok, -⟩
      · cases hn.symm.trans he
        cases hn'.symm.trans he'
        rfl
      · cases hok.symm.trans he
  | unknown ht =>
    cases h' with
    | unknown ht' => rw [hid ht ht']
  | expired ht =>
    cases h' with
    | expired ht' => rw [hid ht ht']
    | expiredAt _ => cases (List.forall₂_cons.1 hfound).1
  | otherDigest r =>
    cases h' with
    | otherDigest r' =>
      cases (List.forall₂_cons.1 hfound).1 with
      | found hr _ => rw [hr]
  | expiredAt he =>
    cases h' with
    | expired _ => cases (List.forall₂_cons.1 hfound).1
    | expiredAt he' =>
      cases (List.forall₂_cons.1 hfound).1 with
      | found hr hexpiry =>
        rw [he, he'] at hexpiry
        rw [hr, Option.some.inj hexpiry]

/-- Two conversations that ended with the same error have the same warnings. The error tells which check has
rejected, and the outlines tell all that its warning says. -/
theorem IsWarned.warnings_eq {e : ServiceError} (h : IsWarned raw xs (.error e))
    (h' : IsWarned raw' ys (.error e)) (hraw : PlainToken.SameOutline raw raw')
    (hfound : List.Forall₂ Storage.SameOutline (xs.filterMap Exchange.found?)
      (ys.filterMap Exchange.found?)) :
    xs.filterMap Exchange.warning? = ys.filterMap Exchange.warning? := by
  -- an error is a rejection or it is not, in both conversations alike
  cases h with
  | rejected he hrejects hone =>
    obtain rfl := Except.error.inj he
    cases h' with
    | rejected he' hrejects' hone' =>
      obtain rfl := Except.error.inj he'
      rw [hone, hone', hrejects.warning_unique hrejects' hraw hfound]
    | silent hno' _ => exact absurd hrejects.isRejection (hno' _ rfl)
  | silent hno hnone =>
    cases h' with
    | rejected he' hrejects' _ =>
      obtain rfl := Except.error.inj he'
      exact absurd hrejects'.isRejection (hno _ rfl)
    | silent _ hnone' => rw [hnone, hnone']

/-! ### Checks -/

namespace Service

/-- Once the text is read and the store has answered, checking ends with a rejection and its one warning, or
with neither. -/
theorem isWarned_afterLookup {token : PlainToken} (hraw : PlainToken.parse raw = .ok token)
    {found : Except StorageError Record} {a : Except ServiceError Record}
    (hxs : (afterLookup token found).Follows xs a) :
    IsWarned raw (⟨.store (.findByDigest (Secret.digest token.secret)), found⟩ :: xs) a := by
  cases found with
  | error e =>
    -- the two errors that tell of the token come with their warning
    cases e with
    | notFound =>
      obtain ⟨_, rfl, rfl⟩ := hxs.of_last
      exact .rejected rfl (.unknown hraw) rfl
    | expired =>
      obtain ⟨_, rfl, rfl⟩ := hxs.of_last
      exact .rejected rfl (.expired hraw) rfl
    | _ =>
      -- any other failure of the store is passed on, and is no rejection
      obtain ⟨rfl, rfl⟩ := hxs.of_done
      refine .silent ?_ rfl
      rintro _ ⟨⟩ ⟨⟩
  | ok record =>
    rw [afterLookup] at hxs
    by_cases hd : record.digest = Secret.digest token.secret
    · rw [checkRecord_of_eq hd] at hxs
      obtain ⟨now, _, rfl, hnow⟩ := hxs.of_ask
      -- the record is the right one, and the clock decides
      cases hexpired : record.isExpiredAt now with
      | true =>
        obtain ⟨expiry, hexpiry, hlt⟩ := Record.isExpiredAt_iff.1 hexpired
        rw [afterReading_of_lt hexpiry hlt] at hnow
        obtain ⟨_, rfl, rfl⟩ := hnow.of_last
        exact .rejected rfl (.expiredAt hexpiry) rfl
      | false =>
        rw [afterReading_of_live hexpired] at hnow
        obtain ⟨rfl, rfl⟩ := hnow.of_done
        refine .silent ?_ rfl
        rintro _ ⟨⟩
    · rw [checkRecord_of_ne hd] at hxs
      obtain ⟨_, rfl, rfl⟩ := hxs.of_last
      exact .rejected rfl (.otherDigest record) rfl

theorem isWarned_inspect (s : Service) {a : Except ServiceError Record}
    (hxs : (s.inspect raw).run.Follows xs a) : IsWarned raw xs a := by
  cases hs : s.connected with
  | false =>
    -- the text is not looked at, malformed or not
    rw [inspect_of_unconnected hs] at hxs
    obtain ⟨rfl, rfl⟩ := hxs.of_done
    refine .silent ?_ rfl
    rintro _ ⟨⟩ ⟨⟩
  | true =>
    cases hraw : PlainToken.parse raw with
    | error e =>
      rw [inspect_of_malformed hs hraw] at hxs
      obtain ⟨_, rfl, rfl⟩ := hxs.of_last
      exact .rejected rfl (.malformed hraw) rfl
    | ok token =>
      rw [inspect_of_wellFormed hs hraw] at hxs
      obtain ⟨found, ys, rfl, hys⟩ := hxs.of_ask
      exact isWarned_afterLookup hraw hys

/-- Handing a touch over is neither a lookup nor a warning. So what is said of inspecting is said of
validating as well. -/
theorem isWarned_validate (s : Service) {a : Except ServiceError Record}
    (hxs : (s.validate raw).run.Follows xs a) : IsWarned raw xs a := by
  rw [validate_eq] at hxs
  obtain ⟨ys, b, zs, rfl, hys, hzs⟩ := hxs.of_bind
  -- what comes after the check adds neither a lookup nor a warning, and leaves the answer
  have hafter : a = b ∧ zs.filterMap Exchange.found? = [] ∧ zs.filterMap Exchange.warning? = [] := by
    cases b with
    | error e =>
      obtain ⟨rfl, rfl⟩ := hzs.of_done
      exact ⟨rfl, rfl, rfl⟩
    | ok record =>
      obtain ⟨_, rfl, rfl⟩ := hzs.of_last
      exact ⟨rfl, rfl, rfl⟩
  obtain ⟨rfl, hfound, hwarning⟩ := hafter
  have hsame : (ys ++ zs).filterMap Exchange.found? = ys.filterMap Exchange.found? := by
    rw [List.filterMap_append, hfound, List.append_nil]
  have hsame' : (ys ++ zs).filterMap Exchange.warning? = ys.filterMap Exchange.warning? := by
    rw [List.filterMap_append, hwarning, List.append_nil]
  cases s.isWarned_inspect hys with
  | rejected ha h hone => exact .rejected ha (hsame ▸ h) (hsame'.trans hone)
  | silent ha hnone => exact .silent ha (hsame'.trans hnone)

/-- The operations that check a presented text. -/
inductive Checks (s : Service) (raw : String) : Program (Except ServiceError Record) → Prop
  | inspecting : Checks s raw (s.inspect raw).run
  | validating : Checks s raw (s.validate raw).run

theorem Checks.isWarned {s : Service} {p : Program (Except ServiceError Record)} (hp : s.Checks raw p)
    {a : Except ServiceError Record} (hxs : p.Follows xs a) : IsWarned raw xs a := by
  cases hp with
  | inspecting => exact s.isWarned_inspect hxs
  | validating => exact s.isWarned_validate hxs

end Service

namespace World

variable {σ α : Type} (driver : Storage.Driver σ) (o : Occasion)

theorem warnings_reply (n : Nat) (q : Request) (w : World σ) :
    (w.reply driver o n q).2.events.filterMap Event.warning? =
      w.events.filterMap Event.warning? ++
        (Exchange.warning? ⟨q, (w.reply driver o n q).1⟩).toList := by
  cases q with
  | warn v =>
    show (w.events ++ [Event.warning v]).filterMap Event.warning? = _
    rw [List.filterMap_append]
    rfl
  | store c =>
    show (if _ then w.events ++ [Event.storeFailed] else w.events).filterMap Event.warning? = _
    -- a failure that a store logs is no warning
    split
    · rw [List.filterMap_append]
      rfl
    · exact (List.append_nil _).symm
  | _ => exact (List.append_nil _).symm

/-- The warnings in the log after a run are those that were, and those that it emitted. The log has other
events, too: a store that failed is told there as well. -/
theorem warnings_runFrom (n : Nat) (p : Program α) (w : World σ) :
    (w.runFrom driver o n p).2.events.filterMap Event.warning? =
      w.events.filterMap Event.warning? ++
        (w.conversation driver o n p).filterMap Exchange.warning? :=
  gathered_runFrom driver o (fun w => w.events.filterMap Event.warning?) Exchange.warning?
    (warnings_reply driver o) n p w

end World

/-- **Every rejection is warned of once, and the warning tells no secret.** A text is checked, by inspecting
or validating it, on any store in any state and at any readings of the clock. What is then added to the
warnings in the log is one warning, when the answer is a rejection, and none otherwise.

Let another text be checked as well, by any service, on another store and at other times. If the two texts
have the same outline, both checks end with the same error, and the answers of the stores on the way have
the same outline, then the two warnings have the same wording. -/
theorem rejections_warn_once (s : Service) (raw : String) {p : Program (Except ServiceError Record)}
    (hp : s.Checks raw p) {σ : Type} (driver : Storage.Driver σ) (o : Occasion) (w : World σ) :
    let answer := (w.run driver o p).1
    let found := (w.conversation driver o 0 p).filterMap Exchange.found?
    let warned := (w.conversation driver o 0 p).filterMap Exchange.warning?
    (w.run driver o p).2.events.filterMap Event.warning? =
        w.events.filterMap Event.warning? ++ warned ∧
    (∀ e, answer = .error e → e.IsRejection → warned.length = 1) ∧
    ((∀ e, answer = .error e → ¬ e.IsRejection) → warned.length = 0) ∧
    ∀ (s' : Service) (raw' : String) (p' : Program (Except ServiceError Record)), s'.Checks raw' p' →
      ∀ (σ' : Type) (driver' : Storage.Driver σ') (o' : Occasion) (w' : World σ'),
        let answer' := (w'.run driver' o' p').1
        let found' := (w'.conversation driver' o' 0 p').filterMap Exchange.found?
        let warned' := (w'.conversation driver' o' 0 p').filterMap Exchange.warning?
        PlainToken.SameOutline raw raw' → List.Forall₂ Storage.SameOutline found found' →
          ∀ e, answer = .error e → answer' = .error e →
            warned.map Warning.text = warned'.map Warning.text := by
  intro answer found warned
  -- everything is read off the conversation, and the log only adds up what was emitted in it
  have hwarned : IsWarned raw (w.conversation driver o 0 p) answer :=
    hp.isWarned (World.follows_conversation driver o 0 p w)
  refine ⟨World.warnings_runFrom driver o 0 p w, ?_, ?_, ?_⟩
  · intro e he hrejection
    cases hwarned with
    | rejected _ _ hone => exact congrArg List.length hone
    | silent ha _ => exact absurd hrejection (ha e he)
  · intro hno
    cases hwarned with
    | rejected ha h _ => exact absurd h.isRejection (hno _ ha)
    | silent _ hnone => exact congrArg List.length hnone
  · intro s' raw' p' hp' σ' driver' o' w' answer' found' warned' hraw hfound e he he'
    have hwarned' : IsWarned raw' (w'.conversation driver' o' 0 p') answer' :=
      hp'.isWarned (World.follows_conversation driver' o' 0 p' w')
    rw [he] at hwarned
    rw [he'] at hwarned'
    exact congrArg (List.map Warning.text) (hwarned.warnings_eq hwarned' hraw hfound)

/-- Two secrets behind the same id, of which one is inspected and the other one validated. -/
theorem rejections_warn_once_twoSecrets :
    let o (now : Instant) : Occasion := ⟨fun _ => now, fun _ n => .ok (Vector.replicate n 0)⟩
    let w : World Storage.Scripted := { store := { findByDigest := .error .expired } }
    let first := (({} : Service).inspect "5|abc").run
    let second := (({ policy := { tokenPrefix := "t" } } : Service).validate "Bearer 5|xyz").run
    let later : Instant := ⟨7, 0, by decide⟩
    let warned (p : Program (Except ServiceError Record)) (now : Instant) :=
      (w.conversation Storage.Scripted.driver (o now) 0 p).filterMap Exchange.warning?
    PlainToken.SameOutline "5|abc" "Bearer 5|xyz" ∧
      Storage.SameOutline (.error .expired) (.error .expired) ∧
      (w.run Storage.Scripted.driver (o .epoch) first).1 = .error .tokenExpired ∧
      (w.run Storage.Scripted.driver (o later) second).1 = .error .tokenExpired ∧
      (warned first .epoch).length = 1 ∧
      (warned first .epoch).map Warning.text = (warned second later).map Warning.text := by
  intro o w first second later warned
  have hjoined : PlainToken.IsJoined "5|abc" ⟨"5", "abc"⟩ := ⟨rfl, by decide, by decide⟩
  have hjoined' : PlainToken.IsJoined "5|xyz" ⟨"5", "xyz"⟩ := ⟨rfl, by decide, by decide⟩
  have hraw : PlainToken.SameOutline "5|abc" "Bearer 5|xyz" :=
    .wellFormed (.bare (by decide)) (.behindScheme "5|xyz") hjoined hjoined' rfl
  have hfound : Storage.SameOutline (.error .expired) (.error .expired) := .refused _ _
  have hfirst : Service.Checks {} "5|abc" first := .inspecting
  obtain ⟨-, hone, -, hsame⟩ := rejections_warn_once {} "5|abc" hfirst Storage.Scripted.driver
    (o .epoch) w
  exact ⟨hraw, hfound, rfl, rfl, hone _ rfl trivial,
    hsame _ _ second .validating _ Storage.Scripted.driver (o later) w hraw (.cons hfound .nil) _ rfl rfl⟩

end AccessTokens
