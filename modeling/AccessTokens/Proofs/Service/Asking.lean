import AccessTokens.Proofs.Service.Moves

/-!
# What operations may ask

`Program.Asks` bounds what a program asks for and what it ends with, whoever replies and whatever the
replies are. Checking a presented text only looks (`Request.IsLook`), and what passes has the digest of
the presented secret (`Service.asks_inspect`), since the answer of the store is not taken on trust.
-/

namespace AccessTokens

open Time (Instant)

/-- A request that looks: it finds a record by its digest, reads the clock, warns, or asks whether a
signal was given. -/
def Request.IsLook : Request → Prop
  | .store (.findByDigest _) | .clock | .warn _ | .isCancelled _ => True
  | _ => False

namespace Program

variable {α β : Type} {Q : Request → Prop} {P : α → Prop}

/-- A program that asks only for what is allowed and ends only as is allowed, whatever the replies. Unlike
`Looks`, this does not trust the store to reply in good order. -/
inductive Asks (Q : Request → Prop) (P : α → Prop) : Program α → Prop
  | done {a : α} (h : P a) : Asks Q P (.done a)
  | ask {q : Request} {next : q.Reply → Program α} (hq : Q q) (h : ∀ r, Asks Q P (next r)) :
    Asks Q P (.ask q next)

theorem Asks.bind {P' : β → Prop} {p : Program α} {f : α → Program β} (hp : p.Asks Q P)
    (hf : ∀ a, P a → (f a).Asks Q P') : (p >>= f).Asks Q P' := by
  induction hp with
  | done h => exact hf _ h
  | ask hq _ ih => exact .ask hq ih

theorem Asks.mono {Q' : Request → Prop} {P' : α → Prop} {p : Program α} (hp : p.Asks Q P)
    (hQ : ∀ q, Q q → Q' q) (hP : ∀ a, P a → P' a) : p.Asks Q' P' := by
  induction hp with
  | done h => exact .done (hP _ h)
  | ask hq _ ih => exact .ask (hQ _ hq) ih

end Program

namespace Service

/-- What passes is a record with the digest of the presented secret. An error passes nothing, so it
satisfies this. -/
def Passes (raw : String) (a : Except ServiceError Record) : Prop :=
  ∀ record, a = .ok record →
    ∃ token, PlainToken.parse raw = .ok token ∧ record.digest = Secret.digest token.secret

theorem Refuses.asks {raw : String} {p : Program (Except ServiceError Record)} (h : Refuses p) :
    p.Asks Request.IsLook (Passes raw) := by
  have herror (e : ServiceError) : Passes raw (.error e) := by rintro _ ⟨⟩
  cases h with
  | silently e => exact .done (herror e)
  | warning w e => exact .ask trivial fun _ => .done (herror e)

/-- **Checking only looks**, and only a record with the right digest passes, whatever the replies. A store
may answer with any record at all: the digest is compared before the record is used. -/
theorem asks_inspect (s : Service) (raw : String) :
    (s.inspect raw).run.Asks Request.IsLook (Passes raw) := by
  -- At each of three points checking refuses or has one way to go on, and refusals only warn.
  rcases s.inspect_cases raw with h | ⟨token, hraw, heq⟩
  · exact h.asks
  rw [heq]
  refine .ask trivial fun a => ?_
  rcases afterLookup_cases token a with h | ⟨record, -, hd, heq⟩
  · exact h.asks
  rw [heq]
  refine .ask trivial fun now => ?_
  rcases afterReading_cases record now with h | heq
  · exact h.asks
  rw [heq]
  refine .done ?_
  -- what passes is the record that the store answered, of which the digest was compared
  rintro _ ⟨⟩
  exact ⟨token, hraw, hd⟩

end Service

end AccessTokens
