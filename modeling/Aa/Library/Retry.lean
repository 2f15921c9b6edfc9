import Mathlib.Order.Basic
import Mathlib.Tactic.Choose

/-!
# Work that is tried again

An attempt at some work starts from a state, meets faults, and ends with a result or an
error. The work is retryable if a failed attempt leaves only a part of the work behind, and
the whole work does the same after that part as before it; so that attempts until one
succeeds do what one attempt without faults does. Steps that have their whole effect or none,
and once they had it do no more, are retryable, and so is a sequence of retryable work. An
invariant of the state that every attempt keeps holds throughout.
-/

namespace Aa.Library

/-- An attempt at some work, under the faults it meets. -/
def Attempt (Fault State Raised α : Type) : Type := Fault → State → Except Raised α × State

/-- The work itself, on the part of the state that matters. -/
abbrev Work (Core Raised α : Type) : Type := Core → Except Raised α × Core

namespace Attempt

variable {Fault State Raised α β : Type}

instance : Monad (Attempt Fault State Raised) where
  pure value := fun _ state => (.ok value, state)
  bind first rest := fun fault state =>
    match first fault state with
    | (.ok value, after) => rest value fault after
    | (.error raised, after) => (.error raised, after)

/-- A check of what does not depend on the state. -/
def check (result : Except Raised α) : Attempt Fault State Raised α :=
  fun _ state => (result, state)

/-- An attempt whose errors are changed. -/
def mapError (change : Raised → Raised) (attempt : Attempt Fault State Raised α) :
    Attempt Fault State Raised α := fun fault state =>
  match attempt fault state with
  | (.ok value, after) => (.ok value, after)
  | (.error raised, after) => (.error (change raised), after)

/-- Attempts at the work, one after another until one succeeds; something happens to the state
before each. -/
def retry (meanwhile : Fault → State → State) (attempt : Attempt Fault State Raised α) :
    List Fault → State → Option α × State
  | [], state => (none, state)
  | fault :: rest, state =>
      match attempt fault (meanwhile fault state) with
      | (.ok value, after) => (some value, after)
      | (.error _, after) => retry meanwhile attempt rest after

theorem bind_of_ok {first : Attempt Fault State Raised β} (rest : β → Attempt Fault State Raised α)
    {fault : Fault} {state middle : State} {found : β}
    (succeeds : first fault state = (.ok found, middle)) :
    (first >>= rest) fault state = rest found fault middle := by
  simp only [Bind.bind, succeeds]

theorem bind_of_error {first : Attempt Fault State Raised β}
    (rest : β → Attempt Fault State Raised α) {fault : Fault} {state middle : State}
    {raised : Raised} (fails : first fault state = (.error raised, middle)) :
    (first >>= rest) fault state = (.error raised, middle) := by
  simp only [Bind.bind, fails]

/-- A successful sequence: the first attempt succeeded, and the rest did from there. -/
theorem ok_of_bind {first : Attempt Fault State Raised β} {rest : β → Attempt Fault State Raised α}
    {fault : Fault} {state after : State} {value : α}
    (succeeds : (first >>= rest) fault state = (.ok value, after)) :
    ∃ found middle, first fault state = (.ok found, middle) ∧
      rest found fault middle = (.ok value, after) := by
  cases ends : first fault state with
  | mk result middle =>
      cases result with
      | error raised =>
          rw [bind_of_error rest ends] at succeeds
          cases succeeds
      | ok found => exact ⟨found, middle, rfl, (bind_of_ok rest ends).symm.trans succeeds⟩

theorem ok_of_mapError {change : Raised → Raised} {attempt : Attempt Fault State Raised α}
    {fault : Fault} {state after : State} {value : α}
    (succeeds : attempt.mapError change fault state = (.ok value, after)) :
    attempt fault state = (.ok value, after) := by
  unfold mapError at succeeds
  split at succeeds
  · rename_i ends
    exact ends.trans succeeds
  · cases succeeds

/-- An attempt keeps what holds of the state, whether it succeeds or not. -/
def Keeps (holds : State → Prop) (attempt : Attempt Fault State Raised α) : Prop :=
  ∀ fault state, holds state → holds (attempt fault state).2

variable {holds : State → Prop}

theorem Keeps.check (result : Except Raised α) :
    Keeps holds (check result : Attempt Fault State Raised α) := fun _ _ held => held

theorem Keeps.pure (value : α) :
    Keeps holds (pure value : Attempt Fault State Raised α) := fun _ _ held => held

theorem Keeps.mapError (change : Raised → Raised) {attempt : Attempt Fault State Raised α}
    (keeps : Keeps holds attempt) : Keeps holds (attempt.mapError change) := by
  intro fault state held
  have after := keeps fault state held
  unfold Attempt.mapError
  split
  · rename_i ends
    rwa [ends] at after
  · rename_i ends
    rwa [ends] at after

theorem Keeps.bind {first : Attempt Fault State Raised β} {rest : β → Attempt Fault State Raised α}
    (keepsFirst : Keeps holds first) (keepsRest : ∀ value, Keeps holds (rest value)) :
    Keeps holds (first >>= rest) := by
  intro fault state held
  have after := keepsFirst fault state held
  cases ends : first fault state with
  | mk result middle =>
      rw [ends] at after
      cases result with
      | error raised => rwa [bind_of_error rest ends]
      | ok found =>
          rw [bind_of_ok rest ends]
          exact keepsRest found fault middle after

/-- Where attempts end in a success, the last of them succeeded, in a state in which what they
keep still held. -/
theorem Keeps.of_retry {attempt : Attempt Fault State Raised α} (keeps : Keeps holds attempt)
    {meanwhile : Fault → State → State}
    (apart : ∀ fault state, holds state → holds (meanwhile fault state)) {faults : List Fault}
    {state after : State} {value : α} (held : holds state)
    (ends : attempt.retry meanwhile faults state = (some value, after)) :
    ∃ fault before, holds before ∧ attempt fault before = (.ok value, after) := by
  induction faults generalizing state with
  | nil => cases ends
  | cons fault rest ih =>
      rw [retry] at ends
      have between := apart fault state held
      have next := keeps fault _ between
      cases once : attempt fault (meanwhile fault state) with
      | mk result middle =>
          rw [once] at ends next
          cases result with
          | ok found =>
              cases ends
              exact ⟨fault, _, between, once⟩
          | error raised => exact ih next ends

end Attempt

namespace Work

variable {Core Raised α β : Type}

/-- One work after another. -/
def bind (first : Work Core Raised β) (rest : β → Work Core Raised α) : Work Core Raised α :=
  fun core =>
    match first core with
    | (.ok value, after) => rest value after
    | (.error raised, after) => (.error raised, after)

/-- A work whose errors are changed. -/
def mapError (change : Raised → Raised) (work : Work Core Raised α) : Work Core Raised α :=
  fun core =>
    match work core with
    | (.ok value, after) => (.ok value, after)
    | (.error raised, after) => (.error (change raised), after)

/-- A step has its effect once: where it fails nothing changes, and where it succeeded it does
so again with the same result and no more effect, whatever came after it. -/
structure Settles [Preorder Core] (work : Work Core Raised α) : Prop where
  error : ∀ {core after raised}, work core = (.error raised, after) → after = core
  ok : ∀ {core after value}, work core = (.ok value, after) →
    core ≤ after ∧ ∀ later, after ≤ later → work later = (.ok value, later)

end Work

section Retryable

variable {Fault State Core Raised α β : Type} [Preorder Core]

/-- Attempts at some work: a failed one leaves behind a part after which the work does the same
as before, a successful one does the work, which is then done for good, and without faults an
attempt does the work. -/
structure Attempts (part : State → Core) (calm : Fault → State → Prop)
    (attempt : Attempt Fault State Raised α) (work : Work Core Raised α) : Prop where
  error : ∀ {fault state raised after}, attempt fault state = (.error raised, after) →
    part state ≤ part after ∧ work (part after) = work (part state)
  ok : ∀ {fault state value after}, attempt fault state = (.ok value, after) →
    part state ≤ part after ∧ work (part state) = (.ok value, part after) ∧
      ∀ later, part after ≤ later → work later = (.ok value, later)
  calm : ∀ {fault state result after}, calm fault state → attempt fault state = (result, after) →
    work (part state) = (result, part after) ∧ calm fault after

/-- An attempt is at some work. -/
def Retryable (part : State → Core) (calm : Fault → State → Prop)
    (attempt : Attempt Fault State Raised α) : Prop :=
  ∃ work, Attempts part calm attempt work

variable {part : State → Core} {calm : Fault → State → Prop}

/-- A step that has its whole effect, or fails with none, is retryable. -/
theorem Retryable.of_settles {attempt : Attempt Fault State Raised α} {work : Work Core Raised α}
    (settles : work.Settles)
    (atomic : ∀ {fault state result after}, attempt fault state = (result, after) →
      work (part state) = (result, part after) ∨
        (∃ raised, result = .error raised) ∧ part after = part state)
    (clean : ∀ {fault state result after}, calm fault state →
      attempt fault state = (result, after) →
        work (part state) = (result, part after) ∧ calm fault after) :
    Retryable part calm attempt := by
  refine ⟨work, ?_, ?_, clean⟩
  · intro fault state raised after fails
    have same : part after = part state := by
      rcases atomic fails with whole | ⟨-, same⟩
      · exact settles.error whole
      · exact same
    rw [same]
    exact ⟨le_rfl, rfl⟩
  · intro fault state value after succeeds
    rcases atomic succeeds with whole | ⟨⟨raised, isError⟩, -⟩
    · exact ⟨(settles.ok whole).1, whole, (settles.ok whole).2⟩
    · cases isError

theorem Retryable.check (result : Except Raised α) :
    Retryable part calm (Attempt.check result) := by
  refine ⟨fun core => (result, core), ?_, ?_, ?_⟩
  · rintro fault state raised after ⟨⟩
    exact ⟨le_rfl, rfl⟩
  · rintro fault state value after ⟨⟩
    exact ⟨le_rfl, rfl, fun later _ => rfl⟩
  · rintro fault state result after isCalm ⟨⟩
    exact ⟨rfl, isCalm⟩

theorem Retryable.pure (value : α) :
    Retryable part calm (pure value : Attempt Fault State Raised α) :=
  .check (.ok value)

theorem Retryable.mapError (change : Raised → Raised) {attempt : Attempt Fault State Raised α}
    (retryable : Retryable part calm attempt) :
    Retryable part calm (attempt.mapError change) := by
  rcases retryable with ⟨work, attempts⟩
  refine ⟨work.mapError change, ?_, ?_, ?_⟩
  · intro fault state raised after fails
    cases ends : attempt fault state with
    | mk result middle =>
        cases result with
        | ok value => simp [Attempt.mapError, ends] at fails
        | error inner =>
            simp only [Attempt.mapError, ends] at fails
            cases fails
            rcases attempts.error ends with ⟨grows, same⟩
            exact ⟨grows, by simp only [Work.mapError, same]⟩
  · intro fault state value after succeeds
    cases ends : attempt fault state with
    | mk result middle =>
        cases result with
        | error inner => simp [Attempt.mapError, ends] at succeeds
        | ok found =>
            simp only [Attempt.mapError, ends] at succeeds
            cases succeeds
            rcases attempts.ok ends with ⟨grows, whole, again⟩
            exact ⟨grows, by simp only [Work.mapError, whole], fun later isLater => by
              simp only [Work.mapError, again later isLater]⟩
  · intro fault state result after isCalm ends
    cases inner : attempt fault state with
    | mk outcome middle =>
        rcases attempts.calm isCalm inner with ⟨whole, calmAfter⟩
        cases outcome with
        | ok found =>
            simp only [Attempt.mapError, inner] at ends
            cases ends
            exact ⟨by simp only [Work.mapError, whole], calmAfter⟩
        | error raised =>
            simp only [Attempt.mapError, inner] at ends
            cases ends
            exact ⟨by simp only [Work.mapError, whole], calmAfter⟩

/-- Retryable work after retryable work is retryable. -/
theorem Retryable.bind {first : Attempt Fault State Raised β}
    {rest : β → Attempt Fault State Raised α} (firstRetryable : Retryable part calm first)
    (restRetryable : ∀ value, Retryable part calm (rest value)) :
    Retryable part calm (first >>= rest) := by
  rcases firstRetryable with ⟨firstWork, firstAttempts⟩
  choose restWork restAttempts using restRetryable
  refine ⟨firstWork.bind restWork, ?_, ?_, ?_⟩
  · intro fault state raised after fails
    cases ends : first fault state with
    | mk result middle =>
        cases result with
        | error inner =>
            rw [Attempt.bind_of_error rest ends] at fails
            cases fails
            rcases firstAttempts.error ends with ⟨grows, same⟩
            exact ⟨grows, by simp only [Work.bind, same]⟩
        | ok value =>
            -- the first work is done for good, and the rest goes on from the part it left
            rw [Attempt.bind_of_ok rest ends] at fails
            rcases firstAttempts.ok ends with ⟨grows, whole, again⟩
            rcases (restAttempts value).error fails with ⟨further, same⟩
            refine ⟨grows.trans further, ?_⟩
            simp only [Work.bind, whole, again _ further, same]
  · intro fault state value after succeeds
    rcases Attempt.ok_of_bind succeeds with ⟨found, middle, ends, restSucceeds⟩
    rcases firstAttempts.ok ends with ⟨grows, whole, again⟩
    rcases (restAttempts found).ok restSucceeds with ⟨further, wholeRest, againRest⟩
    refine ⟨grows.trans further, by simp only [Work.bind, whole, wholeRest], ?_⟩
    intro later isLater
    simp only [Work.bind, again later (further.trans isLater), againRest later isLater]
  · intro fault state result after isCalm ends
    cases inner : first fault state with
    | mk outcome middle =>
        rcases firstAttempts.calm isCalm inner with ⟨whole, calmMiddle⟩
        cases outcome with
        | error raised =>
            rw [Attempt.bind_of_error rest inner] at ends
            cases ends
            exact ⟨by simp only [Work.bind, whole], calmMiddle⟩
        | ok value =>
            rw [Attempt.bind_of_ok rest inner] at ends
            rcases (restAttempts value).calm calmMiddle ends with ⟨wholeRest, calmAfter⟩
            exact ⟨by simp only [Work.bind, whole, wholeRest], calmAfter⟩

/-- Attempts until one succeeds do the work; as long as none has, the work does the same as at
the start. -/
theorem Attempts.retry_spec {attempt : Attempt Fault State Raised α} {work : Work Core Raised α}
    (attempts : Attempts part calm attempt work) {meanwhile : Fault → State → State}
    (apart : ∀ fault state, part (meanwhile fault state) = part state) {faults : List Fault}
    {state after : State} {outcome : Option α}
    (ends : attempt.retry meanwhile faults state = (outcome, after)) :
    (∀ value, outcome = some value → work (part state) = (.ok value, part after)) ∧
      (outcome = none → work (part after) = work (part state)) := by
  induction faults generalizing state with
  | nil =>
      cases ends
      constructor
      · rintro value ⟨⟩
      · rintro -
        rfl
  | cons fault rest ih =>
      rw [Attempt.retry] at ends
      cases once : attempt fault (meanwhile fault state) with
      | mk result middle =>
          rw [once] at ends
          cases result with
          | ok value =>
              cases ends
              rcases attempts.ok once with ⟨-, whole, -⟩
              rw [apart] at whole
              constructor
              · rintro found ⟨⟩
                exact whole
              · rintro ⟨⟩
          | error raised =>
              have same := (attempts.error once).2
              rw [apart] at same
              rw [← same]
              exact ih ends

end Retryable

end Aa.Library
