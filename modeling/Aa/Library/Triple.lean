import Aa.Library.Program

/-!
# Triples over the past of an execution

A triple speaks of every execution of a coroutine: from any past and state that satisfy
the precondition, each event is permitted by what happened before it, an exception is
raised only if the law admits it, and a value is returned only where the postcondition
holds of the longer past and the state left behind. The rules follow the structure of
the code.
-/

namespace Aa.Library

universe u v w

/-- What is asked of executions: how an event is read, which readings are permitted after
which, and which exceptions may be raised. -/
structure Law (Op : Type u) (Answer : Op → Type v) (Raised Moment : Type w) where
  emit : Event Op Answer → Moment
  permits : List Moment → Moment → Prop
  raises : Raised → Prop

namespace Coroutine

variable {Op : Type u} {Answer : Op → Type v} {State Raised Moment α β : Type w}
  {law : Law Op Answer Raised Moment}

/-- How an execution may end. -/
def Ends (law : Law Op Answer Raised Moment) (post : α → List Moment → State → Prop)
    (outcome : Except Raised α) (past : List Moment) (after : State) : Prop :=
  match outcome with
  | .ok value => post value past after
  | .error raised => law.raises raised

/-- Every execution from a past and a state that satisfy `pre` keeps to the law and ends
as `post` says. -/
def Triple (law : Law Op Answer Raised Moment) (pre : List Moment → State → Prop)
    (coroutine : Coroutine Op Answer State Raised α) (post : α → List Moment → State → Prop) :
    Prop :=
  ∀ past before events outcome after, pre past before →
    coroutine.Does before events outcome after →
      Guarded law.permits past (events.map law.emit) ∧
        Ends law post outcome (past ++ events.map law.emit) after

namespace Triple

variable {pre : List Moment → State → Prop} {post : α → List Moment → State → Prop}

theorem weaken {stronger : List Moment → State → Prop} {weaker : α → List Moment → State → Prop}
    {coroutine : Coroutine Op Answer State Raised α} (triple : Triple law pre coroutine post)
    (isStronger : ∀ past state, stronger past state → pre past state)
    (isWeaker : ∀ value past state, post value past state → weaker value past state) :
    Triple law stronger coroutine weaker := by
  intro past before events outcome after holds does
  rcases triple past before events outcome after (isStronger past before holds) does with
    ⟨guarded, ends⟩
  refine ⟨guarded, ?_⟩
  cases outcome with
  | ok value => exact isWeaker value _ _ ends
  | error raised => exact ends

theorem pure {value : α} (returns : ∀ past state, pre past state → post value past state) :
    Triple law pre (Pure.pure value : Coroutine Op Answer State Raised α) post := by
  intro past before events outcome after holds does
  rcases does_pure.mp does with ⟨rfl, rfl, rfl⟩
  refine ⟨trivial, ?_⟩
  rw [List.map_nil, List.append_nil]
  exact returns past after holds

theorem raise {raised : Raised} (admitted : ∀ past state, pre past state → law.raises raised) :
    Triple law pre (raise raised : Coroutine Op Answer State Raised α) post := by
  intro past before events outcome after holds does
  rcases does_raise.mp does with ⟨rfl, rfl, rfl⟩
  exact ⟨trivial, admitted past after holds⟩

theorem read {post : State → List Moment → State → Prop}
    (reads : ∀ past state, pre past state → post state past state) :
    Triple law pre (read : Coroutine Op Answer State Raised State) post := by
  intro past before events outcome after holds does
  rcases does_read.mp does with ⟨rfl, rfl, rfl⟩
  refine ⟨trivial, ?_⟩
  rw [List.map_nil, List.append_nil]
  exact reads past after holds

theorem modify {change : State → State} {post : PUnit → List Moment → State → Prop}
    (changes : ∀ past state, pre past state → post ⟨⟩ past (change state)) :
    Triple law pre (modify change : Coroutine Op Answer State Raised PUnit) post := by
  intro past before events outcome after holds does
  rcases does_modify.mp does with ⟨rfl, rfl, rfl⟩
  refine ⟨trivial, ?_⟩
  rw [List.map_nil, List.append_nil]
  exact changes past before holds

theorem perform {op : Op} {reply : Answer op → Except Raised α}
    (performs : ∀ past state answer, pre past state →
      law.permits past (law.emit ⟨op, answer⟩) ∧
        Ends law post (reply answer) (past ++ [law.emit ⟨op, answer⟩]) state) :
    Triple law pre (perform op reply : Coroutine Op Answer State Raised α) post := by
  intro past before events outcome after holds does
  rcases does_perform.mp does with ⟨answer, rfl, rfl, rfl⟩
  rcases performs past after answer holds with ⟨permitted, ends⟩
  exact ⟨⟨permitted, trivial⟩, ends⟩

theorem bind {mid : β → List Moment → State → Prop}
    {first : Coroutine Op Answer State Raised β} {rest : β → Coroutine Op Answer State Raised α}
    (firstTriple : Triple law pre first mid)
    (restTriple : ∀ value, Triple law (mid value) (rest value) post) :
    Triple law pre (first >>= rest) post := by
  intro past before events outcome after holds does
  rcases does_bind.mp does with
    ⟨value, middle, firstEvents, restEvents, firstDoes, restDoes, rfl⟩ | ⟨raised, firstDoes, rfl⟩
  · rcases firstTriple past before firstEvents _ middle holds firstDoes with ⟨firstGuarded, reached⟩
    rcases restTriple value _ middle restEvents outcome after reached restDoes with
      ⟨restGuarded, ends⟩
    rw [List.map_append, ← List.append_assoc]
    exact ⟨guarded_append.mpr ⟨firstGuarded, restGuarded⟩, ends⟩
  · exact firstTriple past before events _ after holds firstDoes

/-- What follows a read may use that the state is the one that was read. -/
theorem read_bind {rest : State → Coroutine Op Answer State Raised α}
    (restTriple : ∀ current, Triple law (fun past state => pre past state ∧ state = current)
      (rest current) post) : Triple law pre (Coroutine.read >>= rest) post := by
  have reads : Triple law pre (Coroutine.read : Coroutine Op Answer State Raised State)
      (fun current past state => pre past state ∧ state = current) :=
    read fun _ _ holds => ⟨holds, rfl⟩
  exact reads.bind restTriple

/-- A precondition that fails of every past and state. -/
theorem absurd {coroutine : Coroutine Op Answer State Raised α}
    (never : ∀ past state, ¬ pre past state) : Triple law pre coroutine post := by
  intro past before events outcome after holds does
  exact False.elim (never past before holds)

/-- A fact of the precondition may be assumed. -/
theorem assume (fact : Prop) {coroutine : Coroutine Op Answer State Raised α}
    (isFact : ∀ past state, pre past state → fact)
    (triple : fact → Triple law pre coroutine post) : Triple law pre coroutine post := by
  intro past before events outcome after holds does
  exact triple (isFact past before holds) past before events outcome after holds does

end Triple

/-! ## Possible executions -/

section May

variable {before : State} {post : Except Raised α → State → Prop}

/-- Some execution from `before` ends as `post` says. -/
def May (coroutine : Coroutine Op Answer State Raised α) (before : State)
    (post : Except Raised α → State → Prop) : Prop :=
  ∃ events outcome after, coroutine.Does before events outcome after ∧ post outcome after

theorem may_pure {value : α} (ends : post (.ok value) before) :
    May (pure value : Coroutine Op Answer State Raised α) before post :=
  ⟨[], _, before, does_pure.mpr ⟨rfl, rfl, rfl⟩, ends⟩

theorem may_bind {first : Coroutine Op Answer State Raised β}
    {rest : β → Coroutine Op Answer State Raised α} {value : β} {middle : State}
    {events : List (Event Op Answer)} (firstDoes : first.Does before events (.ok value) middle)
    (restMay : May (rest value) middle post) : May (first >>= rest) before post := by
  rcases restMay with ⟨restEvents, outcome, after, restDoes, ends⟩
  exact ⟨events ++ restEvents, outcome, after, does_bind_ok firstDoes restDoes, ends⟩

theorem may_bind_error {first : Coroutine Op Answer State Raised β}
    {rest : β → Coroutine Op Answer State Raised α} {raised : Raised} {after : State}
    {events : List (Event Op Answer)} (firstDoes : first.Does before events (.error raised) after)
    (ends : post (.error raised) after) : May (first >>= rest) before post :=
  ⟨events, .error raised, after, does_bind.mpr (.inr ⟨raised, firstDoes, rfl⟩), ends⟩

theorem may_read_bind {rest : State → Coroutine Op Answer State Raised α}
    (restMay : May (rest before) before post) : May (Coroutine.read >>= rest) before post :=
  may_bind (does_read.mpr ⟨rfl, rfl, rfl⟩) restMay

theorem may_modify_bind {change : State → State}
    {rest : PUnit → Coroutine Op Answer State Raised α}
    (restMay : May (rest ⟨⟩) (change before) post) : May (modify change >>= rest) before post :=
  may_bind (does_modify.mpr ⟨rfl, rfl, rfl⟩) restMay

end May

end Coroutine

end Aa.Library
