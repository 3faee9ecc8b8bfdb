import AccessTokens.Proofs.Service.Conversation
import AccessTokens.Proofs.Service.Session

/-!
# What a move does

Here one move of a session is opened. It moves an operation on or is none (`Session.proceed_cases`), apart
from starts, touches and signals. An operation that is moved on makes one exchange (`Session.exchange?`),
and is over or goes on with what is left after the reply (`Session.step_proceed`); so a move ends one
operation at most (`Session.answers`).

Every operation of a client asks for the signal first and goes on as the service has it
(`Client.perform_eq`).
-/

namespace AccessTokens

open Time (Instant)

/-- The program of an operation once the signal has been asked for and was not given. -/
def Service.perform (s : Service) : (op : Operation) → Program (Except ServiceError op.Result)
  | .issue o => (s.issue o).run
  | .validate raw => (s.validate raw).run
  | .inspect raw => (s.inspect raw).run
  | .revoke raw => (s.revoke raw).run

theorem Client.perform_eq (c : Client) (op : Operation) :
    c.perform op = .ask (.isCancelled c.signal) fun given =>
      if given then .done (.error .cancelled) else c.service.perform op := by
  cases op <;> exact c.unlessCancelled_eq _

/-- An operation that has gone on to the rest of its program is still under way if something is left. -/
def Task.ofRest? (op : Operation) : Program (Except ServiceError op.Result) → Option Task
  | .done _ => none
  | .ask q next => some ⟨op, .ask q next⟩

/-- The outcome of an operation of which nothing is left. -/
def Outcome.ofRest (name : Nat) (op : Operation) :
    Program (Except ServiceError op.Result) → List Outcome
  | .done result => [⟨name, op, result⟩]
  | .ask _ _ => []

theorem Task.eq_of_ofRest? {op : Operation} {rest : Program (Except ServiceError op.Result)}
    {task : Task} (h : Task.ofRest? op rest = some task) : task = ⟨op, rest⟩ := by
  cases rest with
  | done result => cases h
  | ask q next => exact (Option.some.inj h).symm

theorem Outcome.mem_ofRest_iff {name : Nat} {op : Operation}
    {rest : Program (Except ServiceError op.Result)} {x : Outcome} :
    x ∈ Outcome.ofRest name op rest ↔ ∃ result, rest = .done result ∧ x = ⟨name, op, result⟩ := by
  cases rest with
  | done result => simp [Outcome.ofRest]
  | ask q next => simp [Outcome.ofRest]

namespace Session

variable {σ : Type} (driver : Storage.Driver σ) (c : Client) (s : Session σ)

/-- The request that a move makes for an operation, and its reply. Only moving on makes one. Starting an
operation asks for nothing yet, and a touch belongs to no operation. -/
def exchange? : Move → Option Exchange
  | .proceed name now random =>
    match s.tasks name with
    | some ⟨_, .ask q _⟩ => some ⟨q, (s.world.reply driver ⟨fun _ => now, fun _ => random⟩ 0 q).1⟩
    | _ => none
  | _ => none

/-- The outcomes that a move adds. There is at most one: the operation that was moved on may have ended with
it. -/
def answers (move : Move) : List Outcome := (step driver c s move).outcomes.drop s.outcomes.length

theorem advance_eq (name : Nat) (op : Operation) (rest : Program (Except ServiceError op.Result))
    (w : World σ) : s.advance name op rest w =
      { world := w
        tasks := Function.update s.tasks name (Task.ofRest? op rest)
        outcomes := s.outcomes ++ Outcome.ofRest name op rest } := by
  cases rest with
  | done result => rfl
  | ask q next =>
    rw [Outcome.ofRest, List.append_nil]
    rfl

theorem run_concat (moves : List Move) (move : Move) :
    run driver c (moves ++ [move]) s = step driver c (run driver c moves s) move := by
  rw [run, List.foldl_append]
  rfl

/-! ### The kinds of moves -/

section Kinds

variable {driver c s} {name : Nat} {now : Instant} {random : (count : Nat) → Drawn count}
  {op : Operation} {q : Request} {next : q.Reply → Program (Except ServiceError op.Result)}

theorem step_proceed (h : s.tasks name = some ⟨op, .ask q next⟩) :
    step driver c s (.proceed name now random) =
      s.advance name op (next (s.world.reply driver ⟨fun _ => now, fun _ => random⟩ 0 q).1)
        (s.world.reply driver ⟨fun _ => now, fun _ => random⟩ 0 q).2 := by
  rw [step, h]

theorem exchange?_proceed (h : s.tasks name = some ⟨op, .ask q next⟩) :
    s.exchange? driver (.proceed name now random) =
      some ⟨q, (s.world.reply driver ⟨fun _ => now, fun _ => random⟩ 0 q).1⟩ := by
  rw [exchange?, h]

theorem answers_proceed (h : s.tasks name = some ⟨op, .ask q next⟩) :
    s.answers driver c (.proceed name now random) =
      Outcome.ofRest name op (next (s.world.reply driver ⟨fun _ => now, fun _ => random⟩ 0 q).1) := by
  -- a move only adds outcomes behind those that are there
  rw [answers, step_proceed h, advance_eq]
  exact List.drop_left

/-- A move of a name that nothing goes by is no move: it changes nothing, exchanges nothing, and answers
no one. -/
theorem proceed_idle (h : ∀ op q next, s.tasks name ≠ some ⟨op, .ask q next⟩)
    (driver : Storage.Driver σ) (c : Client) (now : Instant)
    (random : (count : Nat) → Drawn count) :
    step driver c s (.proceed name now random) = s ∧
      s.exchange? driver (.proceed name now random) = none ∧
      s.answers driver c (.proceed name now random) = [] := by
  rw [answers, step, exchange?]
  cases ht : s.tasks name with
  | none => exact ⟨rfl, rfl, List.drop_length⟩
  | some task =>
    obtain ⟨op, rest⟩ := task
    cases rest with
    | done result => exact ⟨rfl, rfl, List.drop_length⟩
    | ask q next => exact absurd ht (h op q next)

/-- An operation is moved on by its name, or the move is none. Most facts about moves split here, and only
the first case has anything to show. -/
theorem proceed_cases (driver : Storage.Driver σ) (c : Client) (s : Session σ) (name : Nat)
    (now : Instant) (random : (count : Nat) → Drawn count) :
    (∃ op q next, s.tasks name = some ⟨op, .ask q next⟩) ∨
      step driver c s (.proceed name now random) = s ∧
        s.exchange? driver (.proceed name now random) = none ∧
        s.answers driver c (.proceed name now random) = [] := by
  -- a task that is done is never kept, so there is a request to make or nothing at all
  by_cases h : ∃ op q next, s.tasks name = some ⟨op, .ask q next⟩
  · exact .inl h
  · simp only [not_exists] at h
    exact .inr (proceed_idle h driver c now random)

theorem not_ask_of_done {op : Operation} {a : Except ServiceError op.Result}
    (h : s.tasks name = some ⟨op, .done a⟩) : ∀ op q next, s.tasks name ≠ some ⟨op, .ask q next⟩ := by
  intro op q next heq
  rw [h] at heq
  cases heq

end Kinds

theorem answers_of_outcomes_eq {move : Move} (h : (step driver c s move).outcomes = s.outcomes) :
    s.answers driver c move = [] := by
  rw [answers, h, List.drop_length]

/-! ### What holds of the operations under way -/

section Tasks

variable {driver c s} {I : Task → Prop}

theorem tasks_update (h : ∀ name task, s.tasks name = some task → I task) (name : Nat)
    {task? : Option Task} (ht : ∀ task, task? = some task → I task) :
    ∀ name' task, Function.update s.tasks name task? name' = some task → I task :=
  (Function.forall_update_iff s.tasks fun _ x => ∀ task, x = some task → I task).2
    ⟨ht, fun name' _ => h name'⟩

/-- What held of every operation under way still does when one of them has gone on, if it holds of what is
left of that one. -/
theorem tasks_advance (h : ∀ name task, s.tasks name = some task → I task) {name : Nat}
    {op : Operation} {rest : Program (Except ServiceError op.Result)} {w : World σ}
    (hrest : ∀ task, Task.ofRest? op rest = some task → I task) :
    ∀ name' task, (s.advance name op rest w).tasks name' = some task → I task := by
  rw [advance_eq]
  exact tasks_update h name hrest

/-- What holds of every operation that is started, and is kept whatever is replied to its request, holds
of all operations under way. So a fact about programs becomes one about sessions, without a look at the
store. -/
theorem tasks_step (hstart : ∀ signal op, I ⟨op, (c.observing signal).perform op⟩)
    (hnext : ∀ {op : Operation} {q : Request} {next : q.Reply → Program (Except ServiceError op.Result)},
      I ⟨op, .ask q next⟩ → ∀ r task, Task.ofRest? op (next r) = some task → I task)
    (h : ∀ name task, s.tasks name = some task → I task) (move : Move) :
    ∀ name task, (step driver c s move).tasks name = some task → I task := by
  cases move with
  | start name signal op =>
    refine tasks_update h name ?_
    rintro task ⟨⟩
    exact hstart signal op
  -- only a start and a move of an operation change what is under way
  | proceed name now random =>
    rcases proceed_cases driver c s name now random with ⟨op, q, next, ht⟩ | ⟨hstep, -⟩
    · rw [step_proceed ht]
      exact tasks_advance h (hnext (h name _ ht) _)
    · rw [hstep]
      exact h
  | touch n now => exact h
  | cancel signal => exact h

end Tasks

/-! ### Signals -/

/-- A signal that was given stays given. No move takes it back, so an operation that finds it once would
find it ever after. -/
theorem cancelled_step {g : Signal} (h : g ∈ s.world.cancelled) (move : Move) :
    g ∈ (step driver c s move).world.cancelled := by
  cases move with
  | start name signal op => exact h
  | proceed name now random =>
    rcases proceed_cases driver c s name now random with ⟨op, q, next, ht⟩ | ⟨hstep, -⟩
    · rw [step_proceed ht, advance_eq]
      -- no request takes a signal back
      cases q <;> exact h
    · rwa [hstep]
  | touch n now =>
    change g ∈ (s.world.touch driver now n).cancelled
    rw [World.touch]
    split <;> exact h
  | cancel signal => exact List.mem_cons_of_mem _ h

end Session

end AccessTokens
