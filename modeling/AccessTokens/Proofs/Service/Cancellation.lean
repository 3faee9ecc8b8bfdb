import AccessTokens.Proofs.Service.Moves
import AccessTokens.Storage.Memory
import Mathlib.Data.List.Induction

/-!
# Cancellation

A signal was given, and clones that observe it go on to start operations, as others do. Each of these late
operations ends at its first request, which asks for the signal, and has touched nothing: no bytes were
drawn, no store was asked, no touch was handed over. So the session goes on as if the late operations had
never been started.

The second part is about two runs, of all moves and of the moves that are not late (`onTime`). They stay
beside each other (`Session.Beside`): the worlds are the same, and so is every operation under way, but
for the names that late operations go by. A late move changes only the first run, and only at such a
name (`Beside.late`); any other move does the same to both (`Beside.onTime`).
-/

namespace AccessTokens

open Time (Instant)
open Storage (Memory)

/-! ### Late moves -/

namespace Move

/-- The operation that a move starts or moves on goes by this name. -/
def name? : Move → Option Nat
  | .start name _ _ | .proceed name _ _ => some name
  | .touch _ _ | .cancel _ => none

/-- A move starts an operation under a name. -/
def Starts (name : Nat) (move : Move) : Prop := ∃ signal op, move = .start name signal op

/-- Which names go by a late operation after a move, that is by one that was started by a clone observing
one of the given signals. -/
def lateAfter (gone : List Signal) (late : Nat → Bool) : Move → Nat → Bool
  | .start name signal _ => Function.update late name (gone.contains signal)
  | _ => late

/-- A move is late if it starts a late operation or moves one on. -/
def isLate (gone : List Signal) (late : Nat → Bool) : Move → Bool
  | .start _ signal _ => gone.contains signal
  | .proceed name _ _ => late name
  | .touch _ _ | .cancel _ => false

end Move

/-- Which names go by a late operation after some moves, if none did before. A name that is taken again by
an operation that is not late is not late any more. -/
def lateNames (gone : List Signal) (moves : List Move) : Nat → Bool :=
  moves.foldl (Move.lateAfter gone) fun _ => false

/-- The moves that are not late: what is left of a run when the operations that were started by clones
observing one of the given signals are taken out of it. -/
def onTime (gone : List Signal) (moves : List Move) : List Move :=
  go (fun _ => false) moves
where
  /-- The moves that are not late if some names go by a late operation before them. -/
  go (late : Nat → Bool) : List Move → List Move
    | [] => []
    | move :: moves =>
      if move.isLate gone late then go (move.lateAfter gone late) moves
      else move :: go (move.lateAfter gone late) moves

theorem onTime_concat (gone : List Signal) (moves : List Move) (move : Move) :
    onTime gone (moves ++ [move]) =
      if move.isLate gone (lateNames gone moves) then onTime gone moves
      else onTime gone moves ++ [move] := by
  -- the induction goes along the moves, and which names are late by then goes along with it
  rw [onTime, onTime, lateNames]
  generalize (fun _ => false : Nat → Bool) = late
  induction moves generalizing late with
  | nil => rfl
  | cons m moves ih =>
    -- only the last move is split off, so the two sides agree on whether the first one is late
    rw [List.cons_append, onTime.go, onTime.go, List.foldl_cons, ih]
    split <;> split <;> rfl

theorem lateNames_concat (gone : List Signal) (moves : List Move) (move : Move) :
    lateNames gone (moves ++ [move]) = move.lateAfter gone (lateNames gone moves) := by
  rw [lateNames, List.foldl_append]
  rfl

/-! ### Two runs beside each other -/

namespace Session

variable {σ : Type} {driver : Storage.Driver σ} {c : Client} {gone : List Signal} {late : Nat → Bool}
  {s t : Session σ}

/-- What goes by a name in two runs, of which only the first one has late operations: the same operation
or none in both, or an operation in the first one that is late and has not made a request yet. -/
inductive Paired (c : Client) (gone : List Signal) : Bool → Option Task → Option Task → Prop
  | same (x : Option Task) : Paired c gone false x x
  | late {g : Signal} (hg : g ∈ gone) (op : Operation) (y : Option Task) :
    Paired c gone true (some ⟨op, (c.observing g).perform op⟩) y
  | ended (y : Option Task) : Paired c gone true none y

theorem Paired.update {f g : Nat → Option Task}
    (h : ∀ name, Paired c gone (late name) (f name) (g name)) (name : Nat) {b : Bool}
    {x y : Option Task} (hname : Paired c gone b x y) (name' : Nat) :
    Paired c gone (Function.update late name b name') (Function.update f name x name')
      (Function.update g name y name') := by
  -- the name itself is given by `hname`, and every other name is as it was
  by_cases hn : name' = name
  · subst hn
    simpa only [Function.update_self] using hname
  · simpa only [Function.update_of_ne hn] using h name'

/-- Two sessions are the same but for the late operations of the first one, whose signals were given. How
they came to be so is not part of it, and the outcomes are left out: those of late operations stand among
the others. -/
structure Beside (c : Client) (gone : List Signal) (late : Nat → Bool) (s t : Session σ) : Prop where
  world : s.world = t.world
  tasks : ∀ name, Paired c gone (late name) (s.tasks name) (t.tasks name)
  given : ∀ g ∈ gone, g ∈ s.world.cancelled

/-- **An operation of a cancelled client ends at its first request**, which is for the signal. The world is
the same after it, and so are the other operations. -/
theorem proceed_cancelled {name : Nat} {g : Signal} {op : Operation} (hg : g ∈ s.world.cancelled)
    (h : s.tasks name = some ⟨op, (c.observing g).perform op⟩) (driver : Storage.Driver σ)
    (now : Instant) (random : (count : Nat) → Drawn count) :
    step driver c s (.proceed name now random) =
        { s with
          tasks := Function.update s.tasks name none
          outcomes := s.outcomes ++ [⟨name, op, .error .cancelled⟩] } ∧
      s.exchange? driver (.proceed name now random) = some ⟨.isCancelled g, true⟩ ∧
      s.answers driver c (.proceed name now random) = [⟨name, op, .error .cancelled⟩] := by
  -- every operation begins with the question for its signal
  rw [Client.perform_eq] at h
  change s.tasks name = some ⟨op, .ask (.isCancelled g) _⟩ at h
  have hreply (o : Occasion) : s.world.reply driver o 0 (.isCancelled g) = (true, s.world) := by
    rw [World.reply, List.contains_iff_mem.2 hg]
  rw [step_proceed h, exchange?_proceed h, answers_proceed h, advance_eq, hreply]
  exact ⟨rfl, rfl, rfl⟩

theorem Beside.refl (hgiven : ∀ g ∈ gone, g ∈ s.world.cancelled) :
    Beside c gone (fun _ => false) s s :=
  ⟨rfl, fun _ => .same _, hgiven⟩

theorem Beside.given_step (h : Beside c gone late s t) (driver : Storage.Driver σ) (move : Move) :
    ∀ g ∈ gone, g ∈ (step driver c s move).world.cancelled :=
  fun g hg => cancelled_step driver c s (h.given g hg) move

/-- **A late move leaves no trace**, and a late operation that is moved on is answered that its client is
cancelled. -/
theorem Beside.late_step (h : Beside c gone late s t) (driver : Storage.Driver σ) {move : Move}
    (hlate : move.isLate gone late = true) :
    Beside c gone (move.lateAfter gone late) (step driver c s move) t ∧
      (step driver c s move).world = s.world ∧
      (∀ x ∈ s.exchange? driver move, ∃ g ∈ gone, x = ⟨.isCancelled g, true⟩) ∧
      ∀ x ∈ s.answers driver c move, x.result = .error .cancelled := by
  have hgiven := h.given_step driver move
  cases move with
  | start name signal op =>
    refine ⟨⟨h.world, fun name' => ?_, hgiven⟩, rfl, by rintro _ ⟨⟩, fun x hx => ?_⟩
    -- in the second run nothing is started, so the name keeps there what it had
    · have hname := Paired.update h.tasks name
        (.late (List.contains_iff_mem.1 hlate) op (t.tasks name)) name'
      rw [Function.update_eq_self] at hname
      rw [Move.lateAfter, show gone.contains signal = true from hlate]
      exact hname
    -- starting an operation answers none
    · rw [answers_of_outcomes_eq driver c s rfl] at hx
      cases hx
  | proceed name now random =>
    -- under a late name the first run has a late operation, or one that has been answered
    have hpaired := h.tasks name
    rw [show late name = true from hlate] at hpaired
    generalize hx : s.tasks name = x at hpaired
    cases hpaired with
    | ended y =>
      -- it was answered before
      have hidle : ∀ op q next, s.tasks name ≠ some ⟨op, .ask q next⟩ := by simp [hx]
      obtain ⟨hstep, hexchange, hanswers⟩ := proceed_idle hidle driver c now random
      rw [hstep, hexchange, hanswers]
      exact ⟨h, rfl, by rintro _ ⟨⟩, by simp⟩
    | @late g hg op =>
      -- it has made no request yet, so the one that it makes now is for its signal
      obtain ⟨hstep, hexchange, hanswers⟩ :=
        proceed_cancelled (h.given g hg) hx driver now random
      rw [hstep] at hgiven ⊢
      rw [hexchange, hanswers]
      refine ⟨⟨h.world, fun name' => ?_, hgiven⟩, rfl, ?_, ?_⟩
      · have hname := Paired.update h.tasks name (.ended (t.tasks name)) name'
        rw [← show late name = true from hlate, Function.update_eq_self,
          Function.update_eq_self] at hname
        exact hname
      · rintro _ ⟨⟩
        exact ⟨g, hg, rfl⟩
      · intro x hx
        rw [List.mem_singleton.1 hx]
  -- touches and signals are never late
  | touch n now => cases hlate
  | cancel signal => cases hlate

/-- **Any other move does the same to both.** It makes the same exchange and adds the same outcomes, since
nothing that it looks at, the world and the operation of its own name, differs. -/
theorem Beside.onTime_step (h : Beside c gone late s t) (driver : Storage.Driver σ) {move : Move}
    (hlate : move.isLate gone late = false) :
    Beside c gone (move.lateAfter gone late) (step driver c s move) (step driver c t move) ∧
      s.exchange? driver move = t.exchange? driver move ∧
      s.answers driver c move = t.answers driver c move := by
  have hgiven := h.given_step driver move
  cases move with
  -- The four kinds of moves. A start puts the same operation into both runs, under a name that is not
  -- late from then on, even if it was before.
  | start name signal op =>
    refine ⟨⟨h.world, fun name' => ?_, hgiven⟩, rfl, ?_⟩
    · rw [Move.lateAfter, show gone.contains signal = false from hlate]
      exact Paired.update h.tasks name (.same _) name'
    · rw [answers_of_outcomes_eq driver c s rfl, answers_of_outcomes_eq driver c t rfl]
  | proceed name now random =>
    -- a name that is not late has the same in both, and only an operation that is under way goes on
    have hpaired := h.tasks name
    rw [show late name = false from hlate] at hpaired
    generalize hx : s.tasks name = x at hpaired
    generalize hy : t.tasks name = y at hpaired
    cases hpaired with
    | same x =>
      by_cases htask : ∃ op q next, x = some ⟨op, .ask q next⟩
      · obtain ⟨op, q, next, rfl⟩ := htask
        -- the worlds are the same, so the request has the same reply and leaves the same world
        rw [step_proceed hx] at hgiven ⊢
        rw [step_proceed hy, exchange?_proceed hx, exchange?_proceed hy, answers_proceed hx,
          answers_proceed hy, h.world]
        rw [h.world] at hgiven
        rw [advance_eq] at hgiven ⊢
        rw [advance_eq]
        refine ⟨⟨rfl, fun name' => ?_, hgiven⟩, rfl, rfl⟩
        have hname := Paired.update h.tasks name (.same (Task.ofRest? op
          (next (t.world.reply driver ⟨fun _ => now, fun _ => random⟩ 0 q).1))) name'
        rw [← show late name = false from hlate, Function.update_eq_self] at hname
        exact hname
      -- nothing goes on in either run
      · simp only [not_exists] at htask
        obtain ⟨hs, hse, hsa⟩ := proceed_idle (hx ▸ htask) driver c now random
        obtain ⟨ht, hte, hta⟩ := proceed_idle (hy ▸ htask) driver c now random
        rw [hs, ht, hse, hte, hsa, hta]
        exact ⟨h, rfl, rfl⟩
  -- touches and signals change the worlds only, and both alike
  | touch n now =>
    refine ⟨⟨?_, h.tasks, hgiven⟩, rfl, ?_⟩
    · change s.world.touch driver now n = t.world.touch driver now n
      rw [h.world]
    · rw [answers_of_outcomes_eq driver c s rfl, answers_of_outcomes_eq driver c t rfl]
  | cancel signal =>
    refine ⟨⟨?_, h.tasks, hgiven⟩, rfl, ?_⟩
    · change s.world.cancel signal = t.world.cancel signal
      rw [h.world]
    · rw [answers_of_outcomes_eq driver c s rfl, answers_of_outcomes_eq driver c t rfl]

/-- The run of all moves and the run of those that are not late stay beside each other, whatever the moves
are and whoever makes them. -/
theorem beside_run (hgiven : ∀ g ∈ gone, g ∈ s.world.cancelled) (moves : List Move) :
    Beside c gone (lateNames gone moves) (run driver c moves s)
      (run driver c (onTime gone moves) s) := by
  -- The induction takes the last move off, because whether a move is late is decided by the moves before
  -- it. The run of the others then ends with this move or without it.
  induction moves using List.reverseRecOn with
  | nil => exact .refl hgiven
  | append_singleton moves move ih =>
    rw [run_concat, lateNames_concat, onTime_concat]
    by_cases hlate : move.isLate gone (lateNames gone moves) = true
    · rw [if_pos hlate]
      exact (ih.late_step driver hlate).1
    · rw [if_neg hlate, run_concat]
      exact (ih.onTime_step driver (Bool.eq_false_iff.2 hlate)).1

/-! ### What goes by a name -/

theorem run_append (moves more : List Move) :
    run driver c (moves ++ more) s = run driver c more (run driver c moves s) := List.foldl_append

theorem tasks_step_of_ne {name : Nat} {move : Move} (h : move.name? ≠ some name) :
    (step driver c s move).tasks name = s.tasks name := by
  cases move with
  | start name' signal op =>
    exact Function.update_of_ne (fun hn => h (congrArg some hn.symm)) _ _
  | proceed name' now random =>
    rcases proceed_cases driver c s name' now random with ⟨op, q, next, htask⟩ | ⟨hstep, -⟩
    · rw [step_proceed htask, advance_eq]
      exact Function.update_of_ne (fun hn => h (congrArg some hn.symm)) _ _
    · rw [hstep]
  | touch n now => rfl
  | cancel signal => rfl

/-- Moves that are about other names leave an operation where it is. They may change the store and the
signals, which it sees when it is moved on. -/
theorem tasks_run_of_ne (name : Nat) (moves : List Move) (h : ∀ move ∈ moves, move.name? ≠ some name) :
    (run driver c moves s).tasks name = s.tasks name := by
  induction moves using List.reverseRecOn with
  | nil => rfl
  | append_singleton moves move ih =>
    rw [run_concat, tasks_step_of_ne (h move (by simp))]
    exact ih fun m hm => h m (List.mem_append_left _ hm)

/-- Nothing goes by a name under which nothing was started. Moving such a name on does nothing, however
often it is done. -/
theorem tasks_run_of_not_started {name : Nat} (hs : s.tasks name = none) (moves : List Move)
    (h : ∀ move ∈ moves, ¬ move.Starts name) : (run driver c moves s).tasks name = none := by
  induction moves using List.reverseRecOn with
  | nil => exact hs
  | append_singleton moves move ih =>
    have hnone := ih fun m hm => h m (List.mem_append_left _ hm)
    rw [run_concat]
    -- a move of this name is not a start, and moves on nothing
    by_cases hname : move.name? = some name
    · cases move with
      | start name' signal op =>
        obtain rfl : name' = name := Option.some.inj hname
        exact absurd ⟨signal, op, rfl⟩ (h _ (by simp))
      | proceed name' now random =>
        obtain rfl : name' = name := Option.some.inj hname
        rw [(proceed_idle (by simp [hnone]) driver c now random).1]
        exact hnone
      | touch n now => cases hname
      | cancel signal => cases hname
    · rw [tasks_step_of_ne hname]
      exact hnone

end Session

/-- The operation that goes by a name that is not late was started by a clone that observes none of the
signals, or it was under way already. -/
theorem started_of_not_late {gone : List Signal} {moves : List Move} {name : Nat}
    (h : lateNames gone moves name = false) :
    (∃ before signal op between, moves = before ++ .start name signal op :: between ∧
        signal ∉ gone ∧ ∀ move ∈ between, ¬ move.Starts name) ∨
      ∀ move ∈ moves, ¬ move.Starts name := by
  -- the last start under the name decides, so the moves are taken off from the end
  induction moves using List.reverseRecOn with
  | nil => exact .inr (by simp)
  | append_singleton moves move ih =>
    rw [lateNames_concat] at h
    by_cases hstarts : move.Starts name
    · obtain ⟨signal, op, rfl⟩ := hstarts
      rw [Move.lateAfter, Function.update_self] at h
      refine .inl ⟨moves, signal, op, [], rfl, fun hmem => ?_, by simp⟩
      -- by a clone that observes one of the signals, the name would be late
      exact absurd ((List.contains_iff_mem.2 hmem).symm.trans h) (by decide)
    · have hsame : move.lateAfter gone (lateNames gone moves) name = lateNames gone moves name := by
        cases move with
        | start name' signal op =>
          refine Function.update_of_ne (fun hn => hstarts ⟨signal, op, ?_⟩) _ _
          rw [hn]
        | _ => rfl
      rw [hsame] at h
      -- any other move leaves the last start where it was
      rcases ih h with ⟨before, signal, op, between, rfl, hsignal, hbetween⟩ | hnone
      · refine .inl ⟨before, signal, op, between ++ [move], by simp, hsignal, fun m hm => ?_⟩
        rcases List.mem_append.1 hm with hm | hm
        · exact hbetween m hm
        · exact List.mem_singleton.1 hm ▸ hstarts
      · refine .inr fun m hm => ?_
        rcases List.mem_append.1 hm with hm | hm
        · exact hnone m hm
        · exact List.mem_singleton.1 hm ▸ hstarts

/-! ### The two runs -/

/-- **Cancellation is final and silent.** Some signals were given, and after that a session makes any
moves, by clones that observe these signals and by others, on any store.

* An operation that was started since by a clone that observes one of the signals is answered that its
  client is cancelled, whatever it is asked for, at its first request, which asks for the signal. No move
  of such an operation changes anything: no bytes are drawn, the store is not asked, no touch is handed
  over, and nothing is logged.
* The world is the one that there would be without these operations, and every other move makes the same
  exchange and adds the same outcomes as it would without them.
* So what changes the world are touches that are pending, further signals, and operations that were
  started since by a clone that observes none of these signals, or were under way already. -/
theorem cancellation_final_and_silent {σ : Type} (driver : Storage.Driver σ) (c : Client)
    {gone : List Signal} {s : Session σ} (hgiven : ∀ g ∈ gone, g ∈ s.world.cancelled)
    (moves : List Move) :
    let t := Session.run driver c moves s
    let without := Session.run driver c (onTime gone moves) s
    (∀ before name g op between, moves = before ++ .start name g op :: between → g ∈ gone →
      (∀ move ∈ between, move.name? ≠ some name) → ∀ now random,
        t.exchange? driver (.proceed name now random) = some ⟨.isCancelled g, true⟩ ∧
          t.answers driver c (.proceed name now random) = [⟨name, op, .error .cancelled⟩]) ∧
    (∀ move : Move, move.isLate gone (lateNames gone moves) = true →
      (t.step driver c move).world = t.world ∧
        (∀ x ∈ t.exchange? driver move, ∃ g ∈ gone, x = ⟨.isCancelled g, true⟩) ∧
        ∀ x ∈ t.answers driver c move, x.result = .error .cancelled) ∧
    t.world = without.world ∧
    (∀ move : Move, move.isLate gone (lateNames gone moves) = false →
      t.exchange? driver move = without.exchange? driver move ∧
        t.answers driver c move = without.answers driver c move ∧
        (t.step driver c move).world = (without.step driver c move).world) ∧
    ∀ move : Move, (t.step driver c move).world ≠ t.world →
      (∃ n now id, move = .touch n now ∧ t.world.pending[n]? = some id) ∨
      (∃ signal, move = .cancel signal) ∨
      ∃ name now random, move = .proceed name now random ∧
        ((∃ before signal op between, moves = before ++ .start name signal op :: between ∧
            signal ∉ gone ∧ ∀ move ∈ between, ¬ move.Starts name) ∨
          (∀ move ∈ moves, ¬ move.Starts name) ∧ s.tasks name ≠ none) := by
  intro t without
  -- All five parts are read off the two runs beside each other.
  have hbeside : Session.Beside c gone (lateNames gone moves) t without :=
    Session.beside_run hgiven moves
  refine ⟨?_, fun move hlate => (hbeside.late_step driver hlate).2, hbeside.world, ?_, ?_⟩
  · intro before name g op between hmoves hg hbetween now random
    -- nothing has happened under the name since the start, so it still has its first request to make
    have htask : t.tasks name = some ⟨op, (c.observing g).perform op⟩ := by
      rw [show t = Session.run driver c moves s from rfl, hmoves, Session.run_append]
      exact (Session.tasks_run_of_ne name between hbetween).trans (Function.update_self _ _ _)
    exact (Session.proceed_cancelled (hbeside.given g hg) htask driver now random).2
  · intro move hlate
    obtain ⟨hstep, hexchange, hanswers⟩ := hbeside.onTime_step driver hlate
    exact ⟨hexchange, hanswers, hstep.world⟩
  -- what has changed the world was no start, and no move of a late operation
  · intro move hchange
    cases move with
    | start name signal op => exact absurd rfl hchange
    | cancel signal => exact .inr (.inl ⟨signal, rfl⟩)
    | touch n now =>
      cases hpending : t.world.pending[n]? with
      | none =>
        refine absurd ?_ hchange
        change t.world.touch driver now n = t.world
        rw [World.touch, hpending]
      | some id => exact .inl ⟨n, now, id, rfl, hpending⟩
    | proceed name now random =>
      refine .inr (.inr ⟨name, now, random, rfl, ?_⟩)
      -- a late one would have left the world as it was
      have honTime : lateNames gone moves name = false :=
        Bool.eq_false_iff.2 fun hlate => hchange (hbeside.late_step driver
          (show (Move.proceed name now random).isLate gone (lateNames gone moves) = true from hlate)).2.1
      refine (started_of_not_late honTime).imp id fun hstarts => ⟨hstarts, fun hnone => hchange ?_⟩
      -- nothing went by the name, and nothing was started under it
      have hidle : ∀ op q next, t.tasks name ≠ some ⟨op, .ask q next⟩ := by
        rw [show t.tasks name = none from Session.tasks_run_of_not_started hnone moves hstarts]
        simp
      rw [(Session.proceed_idle hidle driver c now random).1]

/-- Two clones take turns. The signal of the first one was given, so that what it asks for fails although
its options are bad; the other one issues a token meanwhile, as if it were alone. -/
theorem cancellation_final_and_silent_badOptions :
    let c : Client := { service := {}, signal := 0 }
    let s : Session Memory := { world := { store := .empty, cancelled := [0] } }
    let goesOn (name : Nat) : Move := .proceed name .epoch fun _ => .ok (Vector.replicate _ 0)
    let late : Operation := .issue { userId := -1 }
    let moves : List Move := [.start 2 7 (.issue { userId := 4 }), .start 1 0 late, goesOn 2, goesOn 2,
      goesOn 2]
    let t := Session.run Memory.driver c moves s
    let without := Session.run Memory.driver c (onTime [0] moves) s
    let digest := Secret.digest (c.service.secretOf (List.replicate 32 0))
    let record := Record.fresh 4 digest none [] .epoch (some ⟨86400, 0, by decide⟩)
    (∀ g ∈ [0], g ∈ s.world.cancelled) ∧
      t.answers Memory.driver c (goesOn 1) = [⟨1, late, .error .cancelled⟩] ∧
      t.world = without.world ∧
      (t.exchange? Memory.driver (goesOn 2)).bind Exchange.call? = some (.store record) ∧
      t.exchange? Memory.driver (goesOn 2) = without.exchange? Memory.driver (goesOn 2) ∧
      t.answers Memory.driver c (goesOn 2) = without.answers Memory.driver c (goesOn 2) ∧
      (t.answers Memory.driver c (goesOn 2)).filterMap (fun x => x.op.change? x.result) =
        [.stored { record with id := 1 }] := by
  intro c s goesOn late moves t without digest record
  have hgiven : ∀ g ∈ [0], g ∈ s.world.cancelled := by simp [s]
  obtain ⟨hlate, -, hworld, hsame, -⟩ := cancellation_final_and_silent Memory.driver c hgiven moves
  have hanswer := hlate [.start 2 7 (.issue { userId := 4 })] 1 0 late [goesOn 2, goesOn 2, goesOn 2] rfl
    (by simp) (by simp [goesOn, Move.name?]) .epoch fun _ => .ok (Vector.replicate _ 0)
  -- the other clone has only the store left to ask
  obtain ⟨hexchange, hanswers, -⟩ := hsame (goesOn 2) rfl
  have hcall : (t.exchange? Memory.driver (goesOn 2)).bind Exchange.call? = some (.store record) := by
    decide +kernel
  have hstored : (t.answers Memory.driver c (goesOn 2)).filterMap (fun x => x.op.change? x.result) =
      [.stored { record with id := 1 }] := by decide +kernel
  exact ⟨hgiven, hanswer.2, hworld, hcall, hexchange, hanswers, hstored⟩

end AccessTokens
