import AccessTokens.Proofs.PlainToken.Reading
import AccessTokens.Proofs.Service.Conversation
import AccessTokens.Storage.Scripted
import Mathlib.Data.List.Forall2

/-!
# The id that a token is presented with

A presented token names an id that nothing depends on. Two texts that present the same secret are read as
tokens that differ in their ids alone (`PlainToken.presents_iff`), and what is asked and answered because of
them is the same but for the ids in warnings (`presented_id_has_no_influence`).

`Program.SameButId` says so of two programs, request by request and for all replies: they ask for the same,
or warn of tokens presented with different ids, and end in the same way. That operations are related follows
from what they are made of: checking looks at the secret alone once the text is read
(`Service.sameButId_afterLookup`), and whatever comes behind it is one and the same program
(`Program.SameButId.bind`). Related programs that are run on related worlds get the same replies, because a
store is not shown what was logged (`World.SameButId.reply`), and so come to the same and leave worlds that
are related again (`Program.SameButId.runFrom`).
-/

namespace AccessTokens

open Time (Instant)

/-! ### The same but for an id -/

/-- Two warnings are the same or differ in the id that a token was presented with. Only two kinds of
warnings tell this id. The others tell what the store has answered, or how many parts there were. -/
inductive Warning.SameButId : Warning → Warning → Prop
  | same (v : Warning) : SameButId v v
  | unknown (id id' : String) : SameButId (.unknown id) (.unknown id')
  | expired (id id' : String) : SameButId (.expired id) (.expired id')

/-- Two events are the same or are warnings that differ in the id that a token was presented with. -/
inductive Event.SameButId : Event → Event → Prop
  | same (e : Event) : SameButId e e
  | warning {v v' : Warning} (h : v.SameButId v') : SameButId (.warning v) (.warning v')

/-- Two worlds have the same store, the same touches are pending in them and the same signals were given,
and the same was logged, one event after the other, but for the ids in warnings. -/
structure World.SameButId {σ : Type} (w w' : World σ) : Prop where
  store : w.store = w'.store
  pending : w.pending = w'.pending
  events : List.Forall₂ Event.SameButId w.events w'.events
  cancelled : w.cancelled = w'.cancelled

/-- Two runs came to the same, and left worlds that are the same but for the ids in warnings. -/
structure SameRun {σ α : Type} (x y : α × World σ) : Prop where
  answer : x.1 = y.1
  world : x.2.SameButId y.2

/-- Two programs ask for the same and end in the same way, whatever they are told, but for the ids in
warnings. -/
inductive Program.SameButId {α : Type} : Program α → Program α → Prop
  | done (a : α) : SameButId (.done a) (.done a)
  | ask {q : Request} {next next' : q.Reply → Program α} (h : ∀ r, SameButId (next r) (next' r)) :
    SameButId (.ask q next) (.ask q next')
  | warn {v v' : Warning} (hv : v.SameButId v') {next next' : Unit → Program α}
    (h : SameButId (next ()) (next' ())) : SameButId (.ask (.warn v) next) (.ask (.warn v') next')

/-! ### Running -/

namespace World

variable {σ : Type} {w w' : World σ}

theorem SameButId.refl (w : World σ) : w.SameButId w where
  store := rfl
  pending := rfl
  events := List.forall₂_same.2 fun e _ => .same e
  cancelled := rfl

theorem SameButId.log (h : w.SameButId w') {e e' : Event} (he : e.SameButId e') :
    ({ w with events := w.events ++ [e] } : World σ).SameButId { w' with events := w'.events ++ [e'] } :=
  { h with events := List.rel_append h.events (.cons he .nil) }

/-- A call is answered from the store alone, and whether it is logged as a failure is seen from the answer
and the store that it leaves. -/
theorem SameButId.call (h : w.SameButId w') (driver : Storage.Driver σ) (now : Instant)
    (c : Storage.Call) : SameRun (w.call driver now c) (w'.call driver now c) := by
  obtain ⟨store, pending, events, cancelled⟩ := w
  obtain ⟨store', pending', events', cancelled'⟩ := w'
  obtain ⟨rfl, rfl, hevents, rfl⟩ := h
  refine ⟨rfl, rfl, rfl, ?_, rfl⟩
  -- whether the store logs a failure of its own is a matter of its answer
  show List.Forall₂ Event.SameButId (if _ then _ else _) (if _ then _ else _)
  split
  · exact List.rel_append hevents (.cons (.same _) .nil)
  · exact hevents

theorem SameButId.reply (h : w.SameButId w') (driver : Storage.Driver σ) (o : Occasion) (n : Nat)
    (q : Request) : SameRun (w.reply driver o n q) (w'.reply driver o n q) := by
  -- no request asks for what was logged, so every reply comes from what is the same in both
  cases q with
  | store c => exact h.call driver (o.clock n) c
  | clock => exact ⟨rfl, h⟩
  | randomBytes count => exact ⟨rfl, h⟩
  | touchLater id => exact ⟨rfl, { h with pending := congrArg (· ++ [id]) h.pending }⟩
  | warn v => exact ⟨rfl, h.log (.same _)⟩
  | isCancelled g => exact ⟨congrArg (·.contains g) h.cancelled, h⟩

end World

namespace Program

variable {α β : Type}

theorem SameButId.refl (p : Program α) : p.SameButId p := by
  induction p with
  | done a => exact .done a
  | ask q next ih => exact .ask ih

theorem SameButId.bind {p p' : Program α} (h : p.SameButId p') (f : α → Program β) :
    (p >>= f).SameButId (p' >>= f) := by
  induction h with
  | done a => exact .refl _
  | ask _ ih => exact .ask ih
  | warn hv _ ih => exact .warn hv ih

/-- **Related programs come to the same** on any store, in worlds that are related. Nothing is asked of the
store, which may answer by chance as far as this is concerned, as long as it answers the same twice. -/
theorem SameButId.runFrom {σ : Type} {p p' : Program α} (h : p.SameButId p') {w w' : World σ}
    (hw : w.SameButId w') (driver : Storage.Driver σ) (o : Occasion) (n : Nat) :
    SameRun (w.runFrom driver o n p) (w'.runFrom driver o n p') := by
  -- along the two programs together, in any two worlds that are related
  induction h generalizing n w w' with
  | done a => exact ⟨rfl, hw⟩
  | @ask q next next' _ ih =>
    -- both are told the same, and go on with programs that are related for every reply
    have hreply := hw.reply driver o n q
    rw [World.runFrom_ask, World.runFrom_ask, ← hreply.answer]
    exact ih _ hreply.world (n + 1)
  | warn hv _ ih =>
    -- nobody replies to a warning with anything, and only the logs part
    exact ih (hw.log (.warning hv)) (n + 1)

end Program

/-! ### Operations -/

namespace Service

/-- Once a text is read, its secret is looked at alone. The id is kept for warnings, and no store is asked
for it. -/
theorem sameButId_afterLookup (id id' secret : String) (a : Except StorageError Record) :
    (afterLookup ⟨id, secret⟩ a).SameButId (afterLookup ⟨id', secret⟩ a) := by
  -- the id has a part in the two warnings only, and not in what is refused or looked up
  cases a with
  | ok record => exact .refl (checkRecord (Secret.digest secret) record).run
  | error e =>
    cases e with
    | notFound => exact .warn (.unknown id id') (.done _)
    | expired => exact .warn (.expired id id') (.done _)
    | _ => exact .done _

variable {raw raw' secret : String} (h : PlainToken.Presents raw secret)
  (h' : PlainToken.Presents raw' secret)

include h h'

theorem sameButId_inspect (s : Service) : (s.inspect raw).run.SameButId (s.inspect raw').run := by
  obtain ⟨id, hraw⟩ := PlainToken.presents_iff.1 h
  obtain ⟨id', hraw'⟩ := PlainToken.presents_iff.1 h'
  cases hs : s.connected with
  | false =>
    rw [inspect_of_unconnected hs, inspect_of_unconnected hs]
    exact .done _
  | true =>
    -- both ask for the record of the same digest
    rw [inspect_of_wellFormed hs hraw, inspect_of_wellFormed hs hraw']
    exact .ask fun a => sameButId_afterLookup id id' secret a

theorem sameButId_validate (s : Service) : (s.validate raw).run.SameButId (s.validate raw').run := by
  rw [validate_eq, validate_eq]
  exact (sameButId_inspect h h' s).bind _

theorem sameButId_revoke (s : Service) : (s.revoke raw).run.SameButId (s.revoke raw').run := by
  rw [revoke_eq, revoke_eq]
  exact (sameButId_inspect h h' s).bind _

end Service

theorem Client.sameButId_unlessCancelled {α : Type} (c : Client) {a a' : Action α}
    (h : a.run.SameButId a'.run) : (c.unlessCancelled a).run.SameButId (c.unlessCancelled a').run := by
  rw [unlessCancelled_eq, unlessCancelled_eq]
  refine .ask fun given => ?_
  cases given with
  | true => exact .refl _
  | false => exact h

/-- **The id that a token is presented with has no influence.** Two texts that present the same secret, with
any ids and with a scheme or without one, are answered alike: on any store in any state, at any readings of
the clock, and whatever was logged and is pending, validating, inspecting and revoking each come to the same
for both, and leave the same store and the same pending touches. What is logged is the same, too, but for
the ids in warnings. -/
theorem presented_id_has_no_influence (c : Client) {raw raw' secret : String}
    (h : PlainToken.Presents raw secret) (h' : PlainToken.Presents raw' secret) {σ : Type}
    (driver : Storage.Driver σ) (o : Occasion) (w : World σ) :
    SameRun (w.run driver o (c.validate raw).run) (w.run driver o (c.validate raw').run) ∧
      SameRun (w.run driver o (c.inspect raw).run) (w.run driver o (c.inspect raw').run) ∧
      SameRun (w.run driver o (c.revoke raw).run) (w.run driver o (c.revoke raw').run) := by
  have hrun {α : Type} {p p' : Program α} (hp : p.SameButId p') :
      SameRun (w.run driver o p) (w.run driver o p') := hp.runFrom (.refl w) driver o 0
  refine ⟨hrun ?_, hrun ?_, hrun ?_⟩
  · exact c.sameButId_unlessCancelled (Service.sameButId_validate h h' c.service)
  · exact c.sameButId_unlessCancelled (Service.sameButId_inspect h h' c.service)
  · exact c.sameButId_unlessCancelled (Service.sameButId_revoke h h' c.service)

/-- An id that begins with a scheme, and no id at all. The warnings differ, as the store finds nothing. -/
theorem presented_id_has_no_influence_twoSchemes :
    let c : Client := ⟨{}, 0⟩
    let o : Occasion := ⟨fun _ => .epoch, fun _ n => .ok (Vector.replicate n 0)⟩
    let w : World Storage.Scripted := { store := {}, pending := [3] }
    let run (raw : String) := w.run Storage.Scripted.driver o (c.revoke raw).run
    PlainToken.Presents "Bearer Bearer 5|abc" "abc" ∧ PlainToken.Presents "|abc" "abc" ∧
      SameRun (run "Bearer Bearer 5|abc") (run "|abc") ∧ (run "|abc").1 = .error .tokenNotFound ∧
      (run "Bearer Bearer 5|abc").2.events = [.warning (.unknown "Bearer 5")] ∧
      (run "|abc").2.events = [.warning (.unknown "")] := by
  intro c o w run
  have h : PlainToken.Presents "Bearer Bearer 5|abc" "abc" :=
    @PlainToken.Presents.behindScheme "Bearer 5" "abc" (by decide) (by decide)
  have h' : PlainToken.Presents "|abc" "abc" :=
    @PlainToken.Presents.bare "" "abc" (by decide) (by decide)
  exact ⟨h, h', (presented_id_has_no_influence c h h' Storage.Scripted.driver o w).2.2, rfl, rfl, rfl⟩

end AccessTokens
