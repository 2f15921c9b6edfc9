import Mathlib.Data.List.Induction
import Aa.Library.Machine

/-!
# Threads over a shared state

Threads are programs whose operations act on one shared state, each operation atomic.
A schedule says which thread moves and what the environment chooses for it; an operation
that is not answered leaves its thread waiting. The trace of a run is the list of the
answered operations with the threads that performed them, and the part of it that belongs
to one thread is an execution of that thread's program, as far as it has come.
-/

namespace Aa.Library

universe u v w

variable {Op : Type u} {Answer : Op → Type v} {α : Type w}

namespace Program

/-- `program.Reaches events rest`: after the answers in `events` the rest of the program is
`rest`. -/
inductive Reaches : Program Op Answer α → List (Event Op Answer) → Program Op Answer α → Prop
  | refl (program : Program Op Answer α) : Reaches program [] program
  | perform {op : Op} {next : Answer op → Program Op Answer α} {answer : Answer op}
      {events : List (Event Op Answer)} {rest : Program Op Answer α}
      (reaches : Reaches (next answer) events rest) :
      Reaches (.perform op next) (⟨op, answer⟩ :: events) rest

namespace Reaches

variable {program rest : Program Op Answer α} {events later : List (Event Op Answer)} {value : α}

theorem snoc {op : Op} {next : Answer op → Program Op Answer α}
    (reaches : program.Reaches events (.perform op next)) (answer : Answer op) :
    program.Reaches (events ++ [⟨op, answer⟩]) (next answer) := by
  generalize isRest : Program.perform op next = rest at reaches
  induction reaches with
  | refl program =>
      cases isRest
      exact .perform (.refl _)
  | perform _ ih => exact .perform (ih isRest)

theorem behaves_append (reaches : program.Reaches events rest) (ends : rest.Behaves later value) :
    program.Behaves (events ++ later) value := by
  induction reaches with
  | refl program => exact ends
  | perform _ ih => exact .perform (ih ends)

theorem behaves (reaches : program.Reaches events (.done value)) :
    program.Behaves events value := by
  have ends := reaches.behaves_append (.done value)
  rwa [List.append_nil] at ends

/-- Where every operation can be answered, what a program has done is the beginning of an
execution, and the rest of it is answered by the environment. -/
theorem completes (environment : (op : Op) → Answer op) (reaches : program.Reaches events rest) :
    ∃ later value, program.Behaves (events ++ later) value ∧
      ∀ event ∈ later, event.answer = environment event.op :=
  ⟨_, _, reaches.behaves_append (behaves_play (fun _ => environment) [] rest),
    fun _ isLater => answer_of_play isLater⟩

/-- A program that waits for an answer goes on with it. -/
theorem completes_perform (environment : (op : Op) → Answer op) {op : Op}
    {next : Answer op → Program Op Answer α} (reaches : program.Reaches events (.perform op next)) :
    ∃ later value, program.Behaves (events ++ ⟨op, environment op⟩ :: later) value ∧
      ∀ event ∈ later, event.answer = environment event.op := by
  rcases (reaches.snoc (environment op)).completes environment with
    ⟨later, value, behaves, answered⟩
  refine ⟨later, value, ?_, answered⟩
  rwa [List.append_assoc] at behaves

end Reaches

/-- An execution that has ended performs nothing more. -/
theorem Behaves.eq_nil_of_append {program : Program Op Answer α} {value other : α}
    {events later : List (Event Op Answer)} (ended : program.Behaves events value)
    (behaves : program.Behaves (events ++ later) other) : later = [] ∧ other = value := by
  induction ended with
  | done value =>
      rcases behaves_done.mp behaves with ⟨isNil, isValue⟩
      exact ⟨isNil, isValue⟩
  | perform _ ih =>
      cases behaves with
      | perform rest => exact ih rest

/-- The value of a program that has ended. -/
def value? : Program Op Answer α → Option α
  | .done value => some value
  | .perform .. => none

theorem value?_eq_some {program : Program Op Answer α} {value : α} :
    program.value? = some value ↔ program = .done value := by
  cases program <;> simp [value?]

/-- The value and the state of a program that nobody interrupts; none where it has to wait. -/
def solo {Shared : Type} (respond : Shared → (op : Op) → Option (Answer op × Shared)) :
    Shared → Program Op Answer α → Option (α × Shared)
  | shared, .done value => some (value, shared)
  | shared, .perform op next =>
      (respond shared op).bind fun answered => solo respond answered.2 (next answered.1)

theorem solo_bind {Shared : Type} {β : Type w} {program : Program Op Answer β}
    {rest : β → Program Op Answer α}
    (respond : Shared → (op : Op) → Option (Answer op × Shared)) (shared : Shared) :
    (program.bind rest).solo respond shared =
      (program.solo respond shared).bind fun ended => (rest ended.1).solo respond ended.2 := by
  induction program generalizing shared with
  | done value => rfl
  | perform op next ih =>
      simp only [Program.bind, solo, Option.bind_assoc]
      exact congrArg _ (funext fun answered => ih answered.1 answered.2)

end Program

/-! ## Coroutines that nobody interrupts -/

namespace Coroutine

variable {State Raised β γ : Type w} {state : State} {Shared : Type}
  (respond : Shared → (op : Op) → Option (Answer op × Shared)) (current : Shared)

@[simp]
theorem solo_pure (value : β) :
    ((pure value : Coroutine Op Answer State Raised β) state).solo respond current =
      some ((.ok value, state), current) := rfl

@[simp]
theorem solo_raise (raised : Raised) :
    ((raise raised : Coroutine Op Answer State Raised β) state).solo respond current =
      some ((.error raised, state), current) := rfl

@[simp]
theorem solo_perform (op : Op) (reply : Answer op → Except Raised β) :
    ((perform op reply : Coroutine Op Answer State Raised β) state).solo respond current =
      (respond current op).map fun answered => ((reply answered.1, state), answered.2) := by
  cases respondsTo : respond current op <;> simp [perform, Program.solo, respondsTo]

theorem solo_bind (first : Coroutine Op Answer State Raised β)
    (rest : β → Coroutine Op Answer State Raised γ) :
    ((first >>= rest) state).solo respond current =
      ((first state).solo respond current).bind fun ended =>
        match ended.1.1 with
        | .ok value => (rest value ended.1.2).solo respond ended.2
        | .error raised => some ((.error raised, ended.1.2), ended.2) := by
  refine (Program.solo_bind respond current).trans ?_
  congr 1
  funext ⟨⟨outcome, after⟩, now⟩
  cases outcome <;> rfl

end Coroutine

/-- Threads, and the state they share. -/
structure Pool (ι : Type) (Shared : Type) (Op : Type u) (Answer : Op → Type v)
    (α : Type w) where
  shared : Shared
  threads : ι → Program Op Answer α

namespace Pool

variable {ι Shared Choice : Type} [DecidableEq ι]

/-- How the shared state answers an operation of a thread, given what the environment
chooses; none where the thread has to wait. -/
abbrev Responder (ι Shared Choice : Type) (Op : Type u) (Answer : Op → Type v) :=
  ι → Choice → Shared → (op : Op) → Option (Answer op × Shared)

/-- The pool after a thread's operation was answered. -/
def advance (pool : Pool ι Shared Op Answer α) (thread : ι) (rest : Program Op Answer α)
    (shared : Shared) : Pool ι Shared Op Answer α :=
  { shared := shared, threads := Function.update pool.threads thread rest }

@[simp]
theorem advance_shared (pool : Pool ι Shared Op Answer α) (thread : ι)
    (rest : Program Op Answer α) (shared : Shared) :
    (pool.advance thread rest shared).shared = shared := rfl

@[simp]
theorem advance_threads_self (pool : Pool ι Shared Op Answer α) (thread : ι)
    (rest : Program Op Answer α) (shared : Shared) :
    (pool.advance thread rest shared).threads thread = rest := by
  simp [advance]

theorem advance_threads_of_ne (pool : Pool ι Shared Op Answer α) {thread other : ι}
    (rest : Program Op Answer α) (shared : Shared) (isOther : other ≠ thread) :
    (pool.advance thread rest shared).threads other = pool.threads other := by
  simp [advance, isOther]

variable (respond : Responder ι Shared Choice Op Answer)

/-- Lets one thread perform its next operation. -/
def step (pool : Pool ι Shared Op Answer α) (turn : ι × Choice) :
    Pool ι Shared Op Answer α × Option (ι × Event Op Answer) :=
  match pool.threads turn.1 with
  | .done _ => (pool, none)
  | .perform op next =>
      match respond turn.1 turn.2 pool.shared op with
      | none => (pool, none)
      | some (answer, shared) =>
          (pool.advance turn.1 (next answer) shared, some (turn.1, ⟨op, answer⟩))

/-- The machine of a pool: its inputs are the turns of a schedule, its outputs the answered
operations. -/
def machine : Machine (Pool ι Shared Op Answer α) (ι × Choice)
    (Option (ι × Event Op Answer)) where
  step := step respond

/-- The answered operations of a run. -/
def trace (start : Pool ι Shared Op Answer α) (schedule : List (ι × Choice)) :
    List (ι × Event Op Answer) :=
  ((machine respond).steps start schedule).filterMap (·.output)

def run (start : Pool ι Shared Op Answer α) (schedule : List (ι × Choice)) :
    Pool ι Shared Op Answer α :=
  (machine respond).run start schedule

/-- What one thread did. -/
def own (thread : ι) (moments : List (ι × Event Op Answer)) : List (Event Op Answer) :=
  (moments.filter fun moment => moment.1 = thread).map Prod.snd

@[simp]
theorem own_nil (thread : ι) : own thread ([] : List (ι × Event Op Answer)) = [] := rfl

theorem own_append (thread : ι) (first second : List (ι × Event Op Answer)) :
    own thread (first ++ second) = own thread first ++ own thread second := by
  simp [own]

@[simp]
theorem own_self (thread : ι) (event : Event Op Answer) : own thread [(thread, event)] = [event] := by
  simp [own]

theorem own_of_ne {thread other : ι} (isOther : other ≠ thread) (event : Event Op Answer) :
    own thread [(other, event)] = [] := by
  simp [own, isOther]

theorem mem_own {thread : ι} {moments : List (ι × Event Op Answer)} {event : Event Op Answer} :
    event ∈ own thread moments ↔ (thread, event) ∈ moments := by
  simp [own]

/-- One turn: nobody moves, or the thread performs its next operation. -/
theorem step_cases (pool : Pool ι Shared Op Answer α) (turn : ι × Choice) :
    step respond pool turn = (pool, none) ∨
      ∃ op next answer shared, pool.threads turn.1 = .perform op next ∧
        respond turn.1 turn.2 pool.shared op = some (answer, shared) ∧
        step respond pool turn =
          (pool.advance turn.1 (next answer) shared, some (turn.1, ⟨op, answer⟩)) := by
  unfold step
  cases isThread : pool.threads turn.1 with
  | done value => exact .inl rfl
  | perform op next =>
      dsimp only
      cases isAnswer : respond turn.1 turn.2 pool.shared op with
      | none => exact .inl rfl
      | some answered => exact .inr ⟨op, next, answered.1, answered.2, rfl, isAnswer, rfl⟩

variable {respond}

variable {start : Pool ι Shared Op Answer α} {schedule : List (ι × Choice)}

@[simp]
theorem trace_nil : trace respond start [] = [] := rfl

@[simp]
theorem run_nil : run respond start [] = start := rfl

theorem run_snoc (turn : ι × Choice) :
    run respond start (schedule ++ [turn]) =
      (step respond (run respond start schedule) turn).1 :=
  (machine respond).run_append start schedule [turn]

theorem trace_append (second : List (ι × Choice)) :
    trace respond start (schedule ++ second) =
      trace respond start schedule ++ trace respond (run respond start schedule) second := by
  unfold trace
  rw [Machine.steps_append, List.filterMap_append]
  rfl

theorem trace_snoc (turn : ι × Choice) :
    trace respond start (schedule ++ [turn]) =
      trace respond start schedule ++
        (step respond (run respond start schedule) turn).2.toList := by
  unfold trace
  rw [Machine.steps_append, List.filterMap_append]
  congr 1

/-- A fact about the trace and the pool that every answered operation keeps holds of every
run. -/
theorem run_induction (holds : List (ι × Event Op Answer) → Pool ι Shared Op Answer α → Prop)
    (initial : holds [] start)
    (kept : ∀ moments pool thread choice op next answer shared, holds moments pool →
      pool.threads thread = .perform op next →
      respond thread choice pool.shared op = some (answer, shared) →
      holds (moments ++ [(thread, ⟨op, answer⟩)]) (pool.advance thread (next answer) shared)) :
    holds (trace respond start schedule) (run respond start schedule) := by
  induction schedule using List.reverseRecOn with
  | nil => exact initial
  | append_singleton earlier turn ih =>
      rw [run_snoc, trace_snoc]
      rcases step_cases respond (run respond start earlier) turn with
        waits | ⟨op, next, answer, shared, isThread, isAnswer, moves⟩
      · rw [waits]
        simpa using ih
      · rw [moves]
        exact kept _ _ _ _ op next answer shared ih isThread isAnswer

/-- What was performed in a run was performed in one of its turns. -/
theorem exists_turn_of_mem_trace {moment : ι × Event Op Answer}
    (isThere : moment ∈ trace respond start schedule) :
    ∃ earlier turn later, schedule = earlier ++ turn :: later ∧
      (step respond (run respond start earlier) turn).2 = some moment := by
  induction schedule using List.reverseRecOn with
  | nil => cases isThere
  | append_singleton earlier turn ih =>
      rw [trace_snoc] at isThere
      rcases List.mem_append.mp isThere with isEarlier | isNow
      · rcases ih isEarlier with ⟨before, mover, after, rfl, isStep⟩
        exact ⟨before, mover, after ++ [turn], by simp, isStep⟩
      · exact ⟨earlier, turn, [], rfl, Option.mem_toList.mp isNow⟩

variable (respond start schedule) in
/-- What a thread did in a run leads its program to where it stands. -/
theorem reaches_own (thread : ι) :
    (start.threads thread).Reaches (own thread (trace respond start schedule))
      ((run respond start schedule).threads thread) := by
  refine run_induction (fun moments pool =>
    (start.threads thread).Reaches (own thread moments) (pool.threads thread)) (.refl _) ?_
  intro moments pool mover choice op next answer shared reaches isThread isAnswer
  rw [own_append]
  by_cases isMover : thread = mover
  · subst isMover
    rw [own_self, advance_threads_self]
    rw [isThread] at reaches
    exact reaches.snoc answer
  · rw [own_of_ne (Ne.symm isMover), List.append_nil, advance_threads_of_ne _ _ _ isMover]
    exact reaches

/-- A thread without a turn has not begun. -/
theorem threads_of_no_turn {thread : ι} (noTurn : ∀ turn ∈ schedule, turn.1 ≠ thread) :
    (run respond start schedule).threads thread = start.threads thread := by
  induction schedule using List.reverseRecOn with
  | nil => rfl
  | append_singleton earlier turn ih =>
      have isEarlier := ih fun other isThere => noTurn other (by simp [isThere])
      rw [run_snoc]
      rcases step_cases respond (run respond start earlier) turn with
        waits | ⟨op, next, answer, shared, _, _, moves⟩
      · rw [waits, isEarlier]
      · rw [moves, advance_threads_of_ne _ _ _ (noTurn turn (by simp)).symm, isEarlier]

/-- A thread that had returned before the end of a run did nothing more. -/
theorem own_of_returned (environment : (op : Op) → Answer op) {thread : ι} {value : α}
    {before after : List (ι × Event Op Answer)}
    (isTrace : trace respond start schedule = before ++ after)
    (returned : (start.threads thread).Behaves (own thread before) value) :
    own thread (trace respond start schedule) = own thread before := by
  rcases (reaches_own respond start schedule thread).completes environment with
    ⟨later, other, behaves, _⟩
  rw [isTrace, own_append, List.append_assoc] at behaves
  have nothing := (returned.eq_nil_of_append behaves).1
  rw [isTrace, own_append, (List.append_eq_nil_iff.mp nothing).1, List.append_nil]

/-- A run whose trace is guarded: each operation is permitted by the ones before it, when
the shared state answers only what its invariant permits. -/
theorem guarded_trace
    {permits : List (ι × Event Op Answer) → ι × Event Op Answer → Prop}
    (invariant : List (ι × Event Op Answer) → Shared → Prop) (initial : invariant [] start.shared)
    (answers : ∀ moments shared thread choice op answer after, invariant moments shared →
      respond thread choice shared op = some (answer, after) →
      permits moments (thread, ⟨op, answer⟩) ∧
        invariant (moments ++ [(thread, ⟨op, answer⟩)]) after) :
    Guarded permits [] (trace respond start schedule) ∧
      invariant (trace respond start schedule) (run respond start schedule).shared := by
  refine run_induction (fun moments pool =>
    Guarded permits [] moments ∧ invariant moments pool.shared) ⟨trivial, initial⟩ ?_
  rintro moments pool thread choice op next answer shared ⟨guarded, invariantNow⟩ isThread isAnswer
  rcases answers _ _ _ _ _ _ _ invariantNow isAnswer with ⟨permitted, kept⟩
  exact ⟨guarded_append.mpr ⟨guarded, by simpa [Guarded] using permitted⟩, kept⟩

end Pool

end Aa.Library
