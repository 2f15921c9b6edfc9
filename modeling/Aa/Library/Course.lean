import Mathlib.Algebra.BigOperators.Group.List.Basic
import Aa.Library.Program

/-!
# Courses of executions

What an execution does between two states, with the difference between a stretch after
which the program may go on and one after which it must come to its end. A program
keeps to a course if each of its executions is a stretch of it; the rules follow the
structure of the code.
-/

namespace Aa.Library

universe u v w

/-- Stretches that `go` on and stretches that `close`. -/
structure Course (Op : Type u) (Answer : Op → Type v) (State : Type w) where
  goes : State → List (Event Op Answer) → State → Prop
  closes : State → List (Event Op Answer) → State → Prop
  nil : ∀ state, goes state [] state
  closes_of_goes : ∀ {before events after}, goes before events after → closes before events after
  append : ∀ {before middle after first second}, goes before first middle →
    goes middle second after → goes before (first ++ second) after
  append_closes : ∀ {before middle after first second}, goes before first middle →
    closes middle second after → closes before (first ++ second) after

namespace Coroutine

variable {Op : Type u} {Answer : Op → Type v} {State Raised α β : Type w}
  {course : Course Op Answer State}

/-- No execution performs an operation or changes the state. -/
def Idle (coroutine : Coroutine Op Answer State Raised α) : Prop :=
  ∀ before events outcome after, coroutine.Does before events outcome after →
    events = [] ∧ after = before

namespace Idle

theorem pure (value : α) : Idle (Pure.pure value : Coroutine Op Answer State Raised α) := by
  intro before events outcome after does
  rcases does_pure.mp does with ⟨rfl, _, rfl⟩
  exact ⟨rfl, rfl⟩

theorem raise (raised : Raised) : Idle (raise raised : Coroutine Op Answer State Raised α) := by
  intro before events outcome after does
  rcases does_raise.mp does with ⟨rfl, _, rfl⟩
  exact ⟨rfl, rfl⟩

theorem read : Idle (read : Coroutine Op Answer State Raised State) := by
  intro before events outcome after does
  rcases does_read.mp does with ⟨rfl, _, rfl⟩
  exact ⟨rfl, rfl⟩

theorem bind {first : Coroutine Op Answer State Raised β}
    {rest : β → Coroutine Op Answer State Raised α} (firstIdle : Idle first)
    (restIdle : ∀ value, Idle (rest value)) : Idle (first >>= rest) := by
  intro before events outcome after does
  rcases does_bind.mp does with
    ⟨value, middle, firstEvents, restEvents, firstDoes, restDoes, rfl⟩ | ⟨raised, firstDoes, _⟩
  · rcases firstIdle _ _ _ _ firstDoes with ⟨rfl, rfl⟩
    exact restIdle value _ _ _ _ restDoes
  · exact firstIdle _ _ _ _ firstDoes

end Idle

/-- Every execution goes on, even one that raises. -/
def Steady (course : Course Op Answer State) (coroutine : Coroutine Op Answer State Raised α) :
    Prop :=
  ∀ before events outcome after, coroutine.Does before events outcome after →
    course.goes before events after

namespace Steady

theorem of_idle {coroutine : Coroutine Op Answer State Raised α} (idle : Idle coroutine) :
    Steady course coroutine := by
  intro before events outcome after does
  rcases idle _ _ _ _ does with ⟨rfl, rfl⟩
  exact course.nil _

theorem bind {first : Coroutine Op Answer State Raised β}
    {rest : β → Coroutine Op Answer State Raised α} (firstSteady : Steady course first)
    (restSteady : ∀ value, Steady course (rest value)) : Steady course (first >>= rest) := by
  intro before events outcome after does
  rcases does_bind.mp does with
    ⟨value, middle, firstEvents, restEvents, firstDoes, restDoes, rfl⟩ | ⟨raised, firstDoes, _⟩
  · exact course.append (firstSteady _ _ _ _ firstDoes) (restSteady value _ _ _ _ restDoes)
  · exact firstSteady _ _ _ _ firstDoes

theorem catching {body : Coroutine Op Answer State Raised α}
    {handler : Raised → Coroutine Op Answer State Raised α} (bodySteady : Steady course body)
    (handlerSteady : ∀ raised, Steady course (handler raised)) :
    Steady course (catching body handler) := by
  intro before events outcome after does
  rcases does_catching.mp does with ⟨value, bodyDoes, _⟩ |
      ⟨raised, middle, bodyEvents, handlerEvents, bodyDoes, handlerDoes, rfl⟩
  · exact bodySteady _ _ _ _ bodyDoes
  · exact course.append (bodySteady _ _ _ _ bodyDoes) (handlerSteady raised _ _ _ _ handlerDoes)

end Steady

/-! ### Tallies -/

section Tally

variable {Total : Type w} [AddMonoid Total] {total : State → Total}
  {amount : Event Op Answer → Total}

/-- The executions in which a total of the state grows by the amounts of the events. -/
def tallying (total : State → Total) (amount : Event Op Answer → Total) :
    Course Op Answer State where
  goes before events after := total after = total before + (events.map amount).sum
  closes before events after := total after = total before + (events.map amount).sum
  nil state := by simp
  closes_of_goes goes := goes
  append goes rest := by rw [rest, goes, List.map_append, List.sum_append, add_assoc]
  append_closes goes rest := by rw [rest, goes, List.map_append, List.sum_append, add_assoc]

theorem Steady.perform_free {op : Op} {reply : Answer op → Except Raised α}
    (isFree : ∀ answer, amount ⟨op, answer⟩ = 0) :
    Steady (tallying total amount) (perform op reply : Coroutine Op Answer State Raised α) := by
  intro before events outcome after does
  rcases does_perform.mp does with ⟨answer, rfl, _, rfl⟩
  change total after = total after + _
  simp [isFree answer]

theorem Steady.modify_free {change : State → State}
    (keeps : ∀ state, total (change state) = total state) :
    Steady (tallying total amount)
      (modify change : Coroutine Op Answer State Raised PUnit) := by
  intro before events outcome after does
  rcases does_modify.mp does with ⟨rfl, _, rfl⟩
  change total (change before) = total before + _
  simp [keeps]

end Tally

/-- Every execution keeps to the course, and goes on if it returns a value that
`continues`. -/
def Keeps (course : Course Op Answer State) (coroutine : Coroutine Op Answer State Raised α)
    (continues : α → Prop) : Prop :=
  ∀ before events outcome after, coroutine.Does before events outcome after →
    course.closes before events after ∧
      ∀ value, outcome = .ok value → continues value → course.goes before events after

namespace Keeps

variable {continues : α → Prop}

theorem of_steady {coroutine : Coroutine Op Answer State Raised α}
    (steady : Steady course coroutine) : Keeps course coroutine continues := by
  intro before events outcome after does
  have goes := steady _ _ _ _ does
  exact ⟨course.closes_of_goes goes, fun _ _ _ => goes⟩

/-- After a part that always goes on. -/
theorem bind {first : Coroutine Op Answer State Raised β}
    {rest : β → Coroutine Op Answer State Raised α} (firstKeeps : Keeps course first fun _ => True)
    (restKeeps : ∀ value, Keeps course (rest value) continues) :
    Keeps course (first >>= rest) continues := by
  intro before events outcome after does
  rcases does_bind.mp does with
    ⟨value, middle, firstEvents, restEvents, firstDoes, restDoes, rfl⟩ | ⟨raised, firstDoes, rfl⟩
  · have goes := (firstKeeps _ _ _ _ firstDoes).2 value rfl trivial
    rcases restKeeps value _ _ _ _ restDoes with ⟨closes, goesOn⟩
    refine ⟨course.append_closes goes closes, fun result isResult isContinued => ?_⟩
    exact course.append goes (goesOn result isResult isContinued)
  · refine ⟨(firstKeeps _ _ _ _ firstDoes).1, fun result isResult _ => ?_⟩
    cases isResult

/-- After a part that may have closed: where it has, the rest is idle. -/
theorem bind_last {first : Coroutine Op Answer State Raised β}
    {rest : β → Coroutine Op Answer State Raised α} {goesOn : β → Prop}
    (firstKeeps : Keeps course first goesOn)
    (restKeeps : ∀ value, goesOn value → Keeps course (rest value) fun _ => False)
    (restIdle : ∀ value, ¬ goesOn value → Idle (rest value)) :
    Keeps course (first >>= rest) fun _ => False := by
  intro before events outcome after does
  refine ⟨?_, fun _ _ no => no.elim⟩
  rcases does_bind.mp does with
    ⟨value, middle, firstEvents, restEvents, firstDoes, restDoes, rfl⟩ | ⟨raised, firstDoes, rfl⟩
  · rcases firstKeeps _ _ _ _ firstDoes with ⟨closes, goes⟩
    by_cases isContinued : goesOn value
    · exact course.append_closes (goes value rfl isContinued)
        (restKeeps value isContinued _ _ _ _ restDoes).1
    · rcases restIdle value isContinued _ _ _ _ restDoes with ⟨rfl, rfl⟩
      rwa [List.append_nil]
  · exact (firstKeeps _ _ _ _ firstDoes).1

theorem bind_idle {first : Coroutine Op Answer State Raised β}
    {rest : β → Coroutine Op Answer State Raised α}
    (firstKeeps : Keeps course first fun _ => False) (restIdle : ∀ value, Idle (rest value)) :
    Keeps course (first >>= rest) fun _ => False :=
  bind_last firstKeeps (fun _ no => no.elim) fun value _ => restIdle value

theorem map {first : Coroutine Op Answer State Raised β} {wrap : β → α}
    (firstKeeps : Keeps course first fun value => continues (wrap value)) :
    Keeps course (do let value ← first; pure (wrap value)) continues := by
  intro before events outcome after does
  rcases does_bind.mp does with
    ⟨value, middle, firstEvents, restEvents, firstDoes, restDoes, rfl⟩ | ⟨raised, firstDoes, rfl⟩
  · rcases does_pure.mp restDoes with ⟨rfl, rfl, rfl⟩
    rcases firstKeeps _ _ _ _ firstDoes with ⟨closes, goes⟩
    rw [List.append_nil]
    refine ⟨closes, fun result isResult isContinued => goes value rfl ?_⟩
    cases isResult
    exact isContinued
  · refine ⟨(firstKeeps _ _ _ _ firstDoes).1, fun result isResult _ => ?_⟩
    cases isResult

/-- A guarded block with an idle handler closes if it raises. -/
theorem catching {body : Coroutine Op Answer State Raised α}
    {handler : Raised → Coroutine Op Answer State Raised α}
    (bodyKeeps : Keeps course body continues) (handlerIdle : ∀ raised, Idle (handler raised)) :
    Keeps course (catching body handler) fun _ => False := by
  intro before events outcome after does
  refine ⟨?_, fun _ _ no => no.elim⟩
  rcases does_catching.mp does with ⟨value, bodyDoes, _⟩ |
      ⟨raised, middle, bodyEvents, handlerEvents, bodyDoes, handlerDoes, rfl⟩
  · exact (bodyKeeps _ _ _ _ bodyDoes).1
  · rcases handlerIdle raised _ _ _ _ handlerDoes with ⟨rfl, rfl⟩
    rw [List.append_nil]
    exact (bodyKeeps _ _ _ _ bodyDoes).1

end Keeps

end Coroutine

end Aa.Library
