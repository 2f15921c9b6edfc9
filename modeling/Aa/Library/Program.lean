import Mathlib.Data.List.Basic

/-!
# Programs that talk to their environment

A coroutine performs operations whose answers come from outside: a person, a
server, a test command. `Program` is the tree of everything such a program can do,
with one branch for every answer. `Coroutine` adds the mutable state and the raised
exceptions of an imperative language; a raised exception keeps the state written so
far. `Does` relates a coroutine to the events of one execution of it, for arbitrary
answers, and the rules below compute it along the structure of the code.
-/

namespace Aa.Library

universe u v w

variable {Op : Type u} {Answer : Op → Type v}

/-- One operation and the answer it got. -/
structure Event (Op : Type u) (Answer : Op → Type v) where
  op : Op
  answer : Answer op

/-- A program as the tree of its operations, branching on their answers. -/
inductive Program (Op : Type u) (Answer : Op → Type v) (α : Type w)
  | done (value : α)
  | perform (op : Op) (next : Answer op → Program Op Answer α)

namespace Program

variable {α β : Type w}

def bind : Program Op Answer α → (α → Program Op Answer β) → Program Op Answer β
  | done value, rest => rest value
  | perform op next, rest => perform op fun answer => (next answer).bind rest

/-- `program.Behaves events value`: with the answers in `events`, the program
performs exactly `events` and returns `value`. -/
inductive Behaves : Program Op Answer α → List (Event Op Answer) → α → Prop
  | done (value : α) : Behaves (.done value) [] value
  | perform {op : Op} {next : Answer op → Program Op Answer α} {answer : Answer op}
      {events : List (Event Op Answer)} {value : α} (rest : Behaves (next answer) events value) :
      Behaves (.perform op next) (⟨op, answer⟩ :: events) value

theorem behaves_done {value result : α} {events : List (Event Op Answer)} :
    (done value : Program Op Answer α).Behaves events result ↔ events = [] ∧ result = value := by
  constructor
  · intro behaves
    cases behaves
    exact ⟨rfl, rfl⟩
  · rintro ⟨rfl, rfl⟩
    exact .done _

theorem behaves_bind {program : Program Op Answer α} {rest : α → Program Op Answer β}
    {events : List (Event Op Answer)} {result : β} :
    (program.bind rest).Behaves events result ↔
      ∃ value first second, program.Behaves first value ∧ (rest value).Behaves second result ∧
        events = first ++ second := by
  constructor
  · intro behaves
    induction program generalizing events with
    | done value => exact ⟨value, [], events, .done value, behaves, rfl⟩
    | perform op next ih =>
        cases behaves with
        | perform later =>
            rcases ih _ later with ⟨value, first, second, firstBehaves, secondBehaves, rfl⟩
            exact ⟨value, _, second, .perform firstBehaves, secondBehaves, rfl⟩
  · rintro ⟨value, first, second, firstBehaves, secondBehaves, rfl⟩
    induction firstBehaves with
    | done _ => exact secondBehaves
    | perform _ ih => exact .perform (ih secondBehaves)

/-- The events and the result of the program when `environment` answers, knowing
what has happened before. -/
def play (environment : List (Event Op Answer) → (op : Op) → Answer op) :
    List (Event Op Answer) → Program Op Answer α → List (Event Op Answer) × α
  | _, done value => ([], value)
  | past, perform op next =>
      let event : Event Op Answer := ⟨op, environment past op⟩
      let rest := play environment (past ++ [event]) (next (environment past op))
      (event :: rest.1, rest.2)

theorem behaves_play (environment : List (Event Op Answer) → (op : Op) → Answer op)
    (past : List (Event Op Answer)) (program : Program Op Answer α) :
    program.Behaves (play environment past program).1 (play environment past program).2 := by
  induction program generalizing past with
  | done value => exact .done value
  | perform op next ih => exact .perform (ih _ _)

/-- Up to any operation an execution can be followed and the operation answered
differently. -/
theorem Behaves.switch {program : Program Op Answer α} {past later : List (Event Op Answer)}
    {op : Op} {answer : Answer op} {value : α}
    (behaves : program.Behaves (past ++ ⟨op, answer⟩ :: later) value) (other : Answer op) :
    ∃ next : Program Op Answer α, ∀ events result, next.Behaves events result →
      program.Behaves (past ++ ⟨op, other⟩ :: events) result := by
  induction past generalizing program with
  | nil =>
      cases behaves with
      | @perform _ next _ _ _ rest => exact ⟨next other, fun _ _ behaves => .perform behaves⟩
  | cons event past ih =>
      cases behaves with
      | perform rest =>
          rcases ih rest with ⟨next, follows⟩
          exact ⟨next, fun events result behaves => .perform (follows events result behaves)⟩

/-- What the environment answers is what happens. -/
theorem answer_of_play {environment : (op : Op) → Answer op} {past : List (Event Op Answer)}
    {program : Program Op Answer α} {event : Event Op Answer}
    (isThere : event ∈ (play (fun _ => environment) past program).1) :
    event.answer = environment event.op := by
  induction program generalizing past with
  | done value => cases isThere
  | perform op next ih =>
      rcases List.mem_cons.mp isThere with rfl | isLater
      · rfl
      · exact ih _ isLater

end Program

/-- A program with mutable state and raised exceptions. -/
def Coroutine (Op : Type u) (Answer : Op → Type v) (State Raised α : Type w) :=
  State → Program Op Answer (Except Raised α × State)

namespace Coroutine

variable {State Raised α β : Type w}

protected def pure (value : α) : Coroutine Op Answer State Raised α :=
  fun state => .done (.ok value, state)

protected def bind (first : Coroutine Op Answer State Raised α)
    (rest : α → Coroutine Op Answer State Raised β) : Coroutine Op Answer State Raised β :=
  fun state => (first state).bind fun outcome =>
    match outcome.1 with
    | .ok value => rest value outcome.2
    | .error raised => .done (.error raised, outcome.2)

instance : Monad (Coroutine Op Answer State Raised) where
  pure := Coroutine.pure
  bind := Coroutine.bind

/-- Raises an exception. -/
def raise (raised : Raised) : Coroutine Op Answer State Raised α :=
  fun state => .done (.error raised, state)

/-- The current state. -/
def read : Coroutine Op Answer State Raised State :=
  fun state => .done (.ok state, state)

/-- Replaces the current state. -/
def write (state : State) : Coroutine Op Answer State Raised PUnit :=
  fun _ => .done (.ok ⟨⟩, state)

/-- Changes the current state. -/
def modify (change : State → State) : Coroutine Op Answer State Raised PUnit :=
  fun state => .done (.ok ⟨⟩, change state)

/-- Performs an operation whose answer may be an exception. -/
def perform (op : Op) (reply : Answer op → Except Raised α) :
    Coroutine Op Answer State Raised α :=
  fun state => .perform op fun answer => .done (reply answer, state)

/-- Runs `body` and hands what it raises to `handler`. -/
def catching (body : Coroutine Op Answer State Raised α)
    (handler : Raised → Coroutine Op Answer State Raised α) :
    Coroutine Op Answer State Raised α :=
  fun state => (body state).bind fun outcome =>
    match outcome.1 with
    | .ok value => .done (.ok value, outcome.2)
    | .error raised => handler raised outcome.2

/-- `coroutine.Does before events outcome after`: one execution from the state
`before`, its events, how it ended and the state it left. -/
def Does (coroutine : Coroutine Op Answer State Raised α) (before : State)
    (events : List (Event Op Answer)) (outcome : Except Raised α) (after : State) : Prop :=
  (coroutine before).Behaves events (outcome, after)

variable {before after : State} {events : List (Event Op Answer)} {outcome : Except Raised α}

@[simp]
theorem does_pure {value : α} :
    (pure value : Coroutine Op Answer State Raised α).Does before events outcome after ↔
      events = [] ∧ outcome = .ok value ∧ after = before := by
  refine Program.behaves_done.trans ?_
  simp

@[simp]
theorem does_raise {raised : Raised} :
    (raise raised : Coroutine Op Answer State Raised α).Does before events outcome after ↔
      events = [] ∧ outcome = .error raised ∧ after = before := by
  refine Program.behaves_done.trans ?_
  simp

@[simp]
theorem does_read {outcome : Except Raised State} :
    (read : Coroutine Op Answer State Raised State).Does before events outcome after ↔
      events = [] ∧ outcome = .ok before ∧ after = before := by
  refine Program.behaves_done.trans ?_
  simp

@[simp]
theorem does_write {state : State} {outcome : Except Raised PUnit} :
    (write state : Coroutine Op Answer State Raised PUnit).Does before events outcome after ↔
      events = [] ∧ outcome = .ok ⟨⟩ ∧ after = state := by
  refine Program.behaves_done.trans ?_
  simp

@[simp]
theorem does_modify {change : State → State} {outcome : Except Raised PUnit} :
    (modify change : Coroutine Op Answer State Raised PUnit).Does before events outcome after ↔
      events = [] ∧ outcome = .ok ⟨⟩ ∧ after = change before := by
  refine Program.behaves_done.trans ?_
  simp

theorem does_perform {op : Op} {reply : Answer op → Except Raised α} :
    (perform op reply : Coroutine Op Answer State Raised α).Does before events outcome after ↔
      ∃ answer, events = [⟨op, answer⟩] ∧ outcome = reply answer ∧ after = before := by
  constructor
  · intro does
    cases does with
    | perform rest =>
        rcases Program.behaves_done.mp rest with ⟨rfl, ended⟩
        cases ended
        exact ⟨_, rfl, rfl, rfl⟩
  · rintro ⟨answer, rfl, rfl, rfl⟩
    exact .perform (.done _)

/-- A sequence either runs its first part to a value and goes on, or ends with
what the first part raised. -/
theorem does_bind {first : Coroutine Op Answer State Raised β}
    {rest : β → Coroutine Op Answer State Raised α} :
    (first >>= rest).Does before events outcome after ↔
      (∃ value middle firstEvents restEvents, first.Does before firstEvents (.ok value) middle ∧
        (rest value).Does middle restEvents outcome after ∧ events = firstEvents ++ restEvents) ∨
      (∃ raised, first.Does before events (.error raised) after ∧ outcome = .error raised) := by
  refine Program.behaves_bind.trans ?_
  constructor
  · rintro ⟨⟨ended, middle⟩, firstEvents, restEvents, firstDoes, restDoes, rfl⟩
    cases ended with
    | ok value => exact .inl ⟨value, middle, firstEvents, restEvents, firstDoes, restDoes, rfl⟩
    | error raised =>
        rcases Program.behaves_done.mp restDoes with ⟨rfl, ended⟩
        cases ended
        exact .inr ⟨raised, by simpa only [List.append_nil, Does] using firstDoes, rfl⟩
  · rintro (⟨value, middle, firstEvents, restEvents, firstDoes, restDoes, rfl⟩ |
      ⟨raised, firstDoes, rfl⟩)
    · exact ⟨(.ok value, middle), firstEvents, restEvents, firstDoes, restDoes, rfl⟩
    · exact ⟨(.error raised, after), events, [], firstDoes, .done _, by simp⟩

theorem does_bind_ok {first : Coroutine Op Answer State Raised β}
    {rest : β → Coroutine Op Answer State Raised α} {value : β} {middle : State}
    {restEvents : List (Event Op Answer)} (firstDoes : first.Does before events (.ok value) middle)
    (restDoes : (rest value).Does middle restEvents outcome after) :
    (first >>= rest).Does before (events ++ restEvents) outcome after :=
  does_bind.mpr (.inl ⟨value, middle, events, restEvents, firstDoes, restDoes, rfl⟩)

theorem does_perform_answer {op : Op} {reply : Answer op → Except Raised α} {answer : Answer op}
    (isReply : reply answer = outcome) :
    (perform op reply : Coroutine Op Answer State Raised α).Does before [⟨op, answer⟩] outcome
      before :=
  does_perform.mpr ⟨answer, rfl, isReply.symm, rfl⟩

/-- A guarded block either returns what its body returns, or runs the handler. -/
theorem does_catching {body : Coroutine Op Answer State Raised α}
    {handler : Raised → Coroutine Op Answer State Raised α} :
    (catching body handler).Does before events outcome after ↔
      (∃ value, body.Does before events (.ok value) after ∧ outcome = .ok value) ∨
      (∃ raised middle bodyEvents handlerEvents,
        body.Does before bodyEvents (.error raised) middle ∧
        (handler raised).Does middle handlerEvents outcome after ∧
        events = bodyEvents ++ handlerEvents) := by
  refine Program.behaves_bind.trans ?_
  constructor
  · rintro ⟨⟨ended, middle⟩, bodyEvents, handlerEvents, bodyDoes, handlerDoes, rfl⟩
    cases ended with
    | ok value =>
        rcases Program.behaves_done.mp handlerDoes with ⟨rfl, ended⟩
        cases ended
        exact .inl ⟨value, by simpa only [List.append_nil, Does] using bodyDoes, rfl⟩
    | error raised =>
        exact .inr ⟨raised, middle, bodyEvents, handlerEvents, bodyDoes, handlerDoes, rfl⟩
  · rintro (⟨value, bodyDoes, rfl⟩ |
      ⟨raised, middle, bodyEvents, handlerEvents, bodyDoes, handlerDoes, rfl⟩)
    · exact ⟨(.ok value, after), events, [], bodyDoes, .done _, by simp⟩
    · exact ⟨(.error raised, middle), bodyEvents, handlerEvents, bodyDoes, handlerDoes, rfl⟩

/-- Every environment's execution of a coroutine is one of the executions `Does`
speaks of. -/
theorem does_play (environment : List (Event Op Answer) → (op : Op) → Answer op)
    (coroutine : Coroutine Op Answer State Raised α) (before : State) :
    coroutine.Does before ((coroutine before).play environment []).1
      ((coroutine before).play environment []).2.1
      ((coroutine before).play environment []).2.2 :=
  Program.behaves_play environment [] (coroutine before)

/-- An execution up to one of its operations, that answered differently, and from there on
what the environment answers. -/
theorem does_switch (environment : (op : Op) → Answer op)
    {coroutine : Coroutine Op Answer State Raised α} {past later : List (Event Op Answer)}
    {op : Op} {answer : Answer op}
    (does : coroutine.Does before (past ++ ⟨op, answer⟩ :: later) outcome after)
    (other : Answer op) :
    ∃ events ended final, coroutine.Does before (past ++ ⟨op, other⟩ :: events) ended final ∧
      ∀ event ∈ events, event.answer = environment event.op := by
  rcases Program.Behaves.switch does other with ⟨next, follows⟩
  refine ⟨_, _, _, follows _ _ (Program.behaves_play (fun _ => environment) [] next), ?_⟩
  exact fun event isThere => Program.answer_of_play isThere

/-! ### Executions whose events all satisfy a predicate -/

/-- Every event of every execution satisfies `holds`. -/
def Only (holds : Event Op Answer → Prop) (coroutine : Coroutine Op Answer State Raised α) :
    Prop :=
  ∀ before events outcome after, coroutine.Does before events outcome after →
    ∀ event ∈ events, holds event

namespace Only

variable {holds weaker : Event Op Answer → Prop}

theorem mono {coroutine : Coroutine Op Answer State Raised α}
    (isWeaker : ∀ event, holds event → weaker event) (only : Only holds coroutine) :
    Only weaker coroutine :=
  fun before events outcome after does event isThere =>
    isWeaker event (only before events outcome after does event isThere)

theorem pure (value : α) :
    Only holds (Pure.pure value : Coroutine Op Answer State Raised α) := by
  intro before events outcome after does event isThere
  rcases does_pure.mp does with ⟨rfl, _⟩
  cases isThere

theorem raise (raised : Raised) :
    Only holds (raise raised : Coroutine Op Answer State Raised α) := by
  intro before events outcome after does event isThere
  rcases does_raise.mp does with ⟨rfl, _⟩
  cases isThere

theorem read : Only holds (read : Coroutine Op Answer State Raised State) := by
  intro before events outcome after does event isThere
  rcases does_read.mp does with ⟨rfl, _⟩
  cases isThere

theorem modify (change : State → State) :
    Only holds (modify change : Coroutine Op Answer State Raised PUnit) := by
  intro before events outcome after does event isThere
  rcases does_modify.mp does with ⟨rfl, _⟩
  cases isThere

theorem perform {op : Op} {reply : Answer op → Except Raised α}
    (holdsAll : ∀ answer, holds ⟨op, answer⟩) :
    Only holds (perform op reply : Coroutine Op Answer State Raised α) := by
  intro before events outcome after does event isThere
  rcases does_perform.mp does with ⟨answer, rfl, _⟩
  rw [List.mem_singleton.mp isThere]
  exact holdsAll answer

theorem bind {first : Coroutine Op Answer State Raised β}
    {rest : β → Coroutine Op Answer State Raised α} (firstOnly : Only holds first)
    (restOnly : ∀ value, Only holds (rest value)) : Only holds (first >>= rest) := by
  intro before events outcome after does event isThere
  rcases does_bind.mp does with
    ⟨value, middle, firstEvents, restEvents, firstDoes, restDoes, rfl⟩ | ⟨raised, firstDoes, rfl⟩
  · rcases List.mem_append.mp isThere with isFirst | isRest
    · exact firstOnly _ _ _ _ firstDoes event isFirst
    · exact restOnly value _ _ _ _ restDoes event isRest
  · exact firstOnly _ _ _ _ firstDoes event isThere

theorem catching {body : Coroutine Op Answer State Raised α}
    {handler : Raised → Coroutine Op Answer State Raised α} (bodyOnly : Only holds body)
    (handlerOnly : ∀ raised, Only holds (handler raised)) :
    Only holds (catching body handler) := by
  intro before events outcome after does event isThere
  rcases does_catching.mp does with ⟨value, bodyDoes, rfl⟩ |
      ⟨raised, middle, bodyEvents, handlerEvents, bodyDoes, handlerDoes, rfl⟩
  · exact bodyOnly _ _ _ _ bodyDoes event isThere
  · rcases List.mem_append.mp isThere with isBody | isHandler
    · exact bodyOnly _ _ _ _ bodyDoes event isBody
    · exact handlerOnly raised _ _ _ _ handlerDoes event isHandler

end Only

/-! ### Beginnings of executions -/

/-- `coroutine.Starts before events`: some execution begins with `events`. -/
def Starts (coroutine : Coroutine Op Answer State Raised α) (before : State)
    (events : List (Event Op Answer)) : Prop :=
  ∃ rest outcome after, coroutine.Does before (events ++ rest) outcome after

theorem starts_of_does {coroutine : Coroutine Op Answer State Raised α}
    (does : coroutine.Does before events outcome after) : coroutine.Starts before events :=
  ⟨[], outcome, after, by rwa [List.append_nil]⟩

/-- Where every operation can be answered, every coroutine has an execution. -/
theorem starts_nil (environment : (op : Op) → Answer op)
    (coroutine : Coroutine Op Answer State Raised α) (before : State) :
    coroutine.Starts before [] :=
  ⟨_, _, _, does_play (fun _ => environment) coroutine before⟩

theorem starts_bind {first : Coroutine Op Answer State Raised β}
    {rest : β → Coroutine Op Answer State Raised α} {value : β} {middle : State}
    {later : List (Event Op Answer)} (firstDoes : first.Does before events (.ok value) middle)
    (restStarts : (rest value).Starts middle later) :
    (first >>= rest).Starts before (events ++ later) := by
  rcases restStarts with ⟨after, outcome, final, restDoes⟩
  refine ⟨after, outcome, final, ?_⟩
  rw [List.append_assoc]
  exact does_bind_ok firstDoes restDoes

theorem starts_bind_left (environment : (op : Op) → Answer op)
    {first : Coroutine Op Answer State Raised β} {rest : β → Coroutine Op Answer State Raised α}
    (firstStarts : first.Starts before events) : (first >>= rest).Starts before events := by
  rcases firstStarts with ⟨after, outcome, middle, firstDoes⟩
  cases outcome with
  | error raised => exact ⟨after, .error raised, middle, does_bind.mpr (.inr ⟨raised, firstDoes, rfl⟩)⟩
  | ok value =>
      rcases starts_bind firstDoes (starts_nil environment (rest value) middle) with
        ⟨later, outcome, final, does⟩
      exact ⟨after ++ later, outcome, final, by simpa [List.append_assoc] using does⟩

theorem starts_catching (environment : (op : Op) → Answer op)
    {body : Coroutine Op Answer State Raised α}
    {handler : Raised → Coroutine Op Answer State Raised α}
    (bodyStarts : body.Starts before events) : (catching body handler).Starts before events := by
  rcases bodyStarts with ⟨after, outcome, middle, bodyDoes⟩
  cases outcome with
  | ok value => exact ⟨after, .ok value, middle, does_catching.mpr (.inl ⟨value, bodyDoes, rfl⟩)⟩
  | error raised =>
      rcases starts_nil environment (handler raised) middle with ⟨later, outcome, final, handles⟩
      refine ⟨after ++ later, outcome, final, does_catching.mpr (.inr ?_)⟩
      exact ⟨raised, middle, events ++ after, later, bodyDoes, handles,
        (List.append_assoc _ _ _).symm⟩

end Coroutine

/-! ## Guarded traces -/

section Guarded

variable {Moment : Type w} {permits : List Moment → Moment → Prop}

/-- Every moment is permitted by `past` and the moments before it. -/
def Guarded (permits : List Moment → Moment → Prop) : List Moment → List Moment → Prop
  | _, [] => True
  | past, moment :: rest => permits past moment ∧ Guarded permits (past ++ [moment]) rest

instance decidableGuarded [∀ past moment, Decidable (permits past moment)] :
    (past moments : List Moment) → Decidable (Guarded permits past moments)
  | _, [] => isTrue trivial
  | past, moment :: rest =>
      have := decidableGuarded (past ++ [moment]) rest
      inferInstanceAs (Decidable (_ ∧ _))

theorem guarded_append {past first second : List Moment} :
    Guarded permits past (first ++ second) ↔
      Guarded permits past first ∧ Guarded permits (past ++ first) second := by
  induction first generalizing past with
  | nil => simp [Guarded]
  | cons moment rest ih => simp [Guarded, ih, and_assoc]

theorem guarded_iff_split {past moments : List Moment} :
    Guarded permits past moments ↔
      ∀ before moment after, moments = before ++ moment :: after →
        permits (past ++ before) moment := by
  constructor
  · rintro guarded before moment after rfl
    exact (guarded_append.mp guarded).2.1
  · intro split
    induction moments generalizing past with
    | nil => trivial
    | cons moment rest ih =>
        refine ⟨?_, ih ?_⟩
        · simpa using split [] moment rest rfl
        · rintro before later after rfl
          simpa using split (moment :: before) later after rfl

/-- What each moment owes to every moment before it holds of all pairs. -/
theorem pairwise_of_guarded {related : Moment → Moment → Prop} {past moments : List Moment}
    (guarded : Guarded permits past moments)
    (owes : ∀ past moment, permits past moment → ∀ earlier ∈ past, related earlier moment) :
    moments.Pairwise related ∧ ∀ earlier ∈ past, ∀ later ∈ moments, related earlier later := by
  induction moments generalizing past with
  | nil => simp
  | cons moment rest ih =>
      rcases guarded with ⟨permitted, restGuarded⟩
      rcases ih restGuarded with ⟨pairwise, across⟩
      refine ⟨List.pairwise_cons.mpr ⟨?_, pairwise⟩, ?_⟩
      · intro later isLater
        exact across moment (by simp) later isLater
      · intro earlier isPast later isLater
        rcases List.mem_cons.mp isLater with rfl | isRest
        · exact owes past later permitted earlier isPast
        · exact across earlier (by simp [isPast]) later isRest

end Guarded

end Aa.Library
