import Aa.Library.Program

/-!
# Exceptions that nothing handles

Some exceptions are fatal: no handler of the program is for them. If all handlers pass the fatal
ones on and raise none themselves, then an execution ends with a fatal exception exactly if one of
its operations was answered with one. The rules follow the structure of the code.
-/

namespace Aa.Library

universe u v w

namespace Coroutine

variable {Op : Type u} {Answer : Op → Type v} {State Raised α β : Type w}
  {fatal : Raised → Prop} {reports : Event Op Answer → Prop}

/-- An outcome that raises a fatal exception. -/
def IsFatal (fatal : Raised → Prop) (outcome : Except Raised α) : Prop :=
  ∃ raised, outcome = .error raised ∧ fatal raised

@[simp]
theorem not_isFatal_ok {value : α} : ¬ IsFatal fatal (.ok value : Except Raised α) := by
  rintro ⟨_, ⟨⟩, _⟩

@[simp]
theorem isFatal_error {raised : Raised} :
    IsFatal fatal (.error raised : Except Raised α) ↔ fatal raised := by
  simp [IsFatal]

/-- Every execution ends with a fatal exception exactly if one of its events reports one. -/
def Escapes (fatal : Raised → Prop) (reports : Event Op Answer → Prop)
    (coroutine : Coroutine Op Answer State Raised α) : Prop :=
  ∀ before events outcome after, coroutine.Does before events outcome after →
    (IsFatal fatal outcome ↔ ∃ event ∈ events, reports event)

namespace Escapes

theorem pure (value : α) :
    Escapes fatal reports (Pure.pure value : Coroutine Op Answer State Raised α) := by
  intro before events outcome after does
  rcases does_pure.mp does with ⟨rfl, rfl, _⟩
  simp

theorem raise {raised : Raised} (notFatal : ¬ fatal raised) :
    Escapes fatal reports (raise raised : Coroutine Op Answer State Raised α) := by
  intro before events outcome after does
  rcases does_raise.mp does with ⟨rfl, rfl, _⟩
  simpa using notFatal

theorem read : Escapes fatal reports (read : Coroutine Op Answer State Raised State) := by
  intro before events outcome after does
  rcases does_read.mp does with ⟨rfl, rfl, _⟩
  simp

theorem write (state : State) :
    Escapes fatal reports (write state : Coroutine Op Answer State Raised PUnit) := by
  intro before events outcome after does
  rcases does_write.mp does with ⟨rfl, rfl, _⟩
  simp

theorem modify (change : State → State) :
    Escapes fatal reports (modify change : Coroutine Op Answer State Raised PUnit) := by
  intro before events outcome after does
  rcases does_modify.mp does with ⟨rfl, rfl, _⟩
  simp

theorem perform {op : Op} {reply : Answer op → Except Raised α}
    (isReport : ∀ answer, IsFatal fatal (reply answer) ↔ reports ⟨op, answer⟩) :
    Escapes fatal reports (perform op reply : Coroutine Op Answer State Raised α) := by
  intro before events outcome after does
  rcases does_perform.mp does with ⟨answer, rfl, rfl, _⟩
  simpa using isReport answer

theorem bind {first : Coroutine Op Answer State Raised β}
    {rest : β → Coroutine Op Answer State Raised α} (firstEscapes : Escapes fatal reports first)
    (restEscapes : ∀ value, Escapes fatal reports (rest value)) :
    Escapes fatal reports (first >>= rest) := by
  intro before events outcome after does
  rcases does_bind.mp does with
    ⟨value, middle, firstEvents, restEvents, firstDoes, restDoes, rfl⟩ | ⟨raised, firstDoes, rfl⟩
  · have isFirst := firstEscapes _ _ _ _ firstDoes
    have isRest := restEscapes value _ _ _ _ restDoes
    simp only [not_isFatal_ok, false_iff] at isFirst
    simp only [isRest, List.mem_append, or_and_right, exists_or]
    exact (or_iff_right isFirst).symm
  · have isFirst := firstEscapes _ _ _ _ firstDoes
    rwa [isFatal_error] at isFirst ⊢

/-- A guarded block whose handler passes the fatal exceptions on. -/
theorem catching {body : Coroutine Op Answer State Raised α}
    {handler : Raised → Coroutine Op Answer State Raised α}
    (bodyEscapes : Escapes fatal reports body)
    (handlerEscapes : ∀ raised, ¬ fatal raised → Escapes fatal reports (handler raised))
    (passes : ∀ raised, fatal raised → handler raised = Coroutine.raise raised) :
    Escapes fatal reports (catching body handler) := by
  intro before events outcome after does
  rcases does_catching.mp does with ⟨value, bodyDoes, rfl⟩ |
      ⟨raised, middle, bodyEvents, handlerEvents, bodyDoes, handlerDoes, rfl⟩
  · have isBody := bodyEscapes _ _ _ _ bodyDoes
    simpa using isBody
  · have isBody := bodyEscapes _ _ _ _ bodyDoes
    rw [isFatal_error] at isBody
    simp only [List.mem_append, or_and_right, exists_or, ← isBody]
    by_cases isFatal : fatal raised
    · rw [passes raised isFatal] at handlerDoes
      rcases does_raise.mp handlerDoes with ⟨rfl, rfl, _⟩
      simp
    · have isHandler := handlerEscapes raised isFatal _ _ _ _ handlerDoes
      rw [isHandler]
      exact (or_iff_right isFatal).symm

end Escapes

end Coroutine

end Aa.Library
