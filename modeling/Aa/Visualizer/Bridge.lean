import Aa.Library.Machine
import Aa.Visualizer.Delivery

/-!
# The live bridge

Accumulates validated events and derives its frames from them when they are read. The
frames are kept until more events arrive, and are those of a replay of all events that
were applied, however they were split into batches and delivered.
-/

namespace Aa.Visualizer

open Aa.Library Aa.Contracts Session Replay

variable {Point : Type}

/-- A live session: its events, and the frames derived from them if `built`. -/
structure Bridge (Point : Type) where
  sessionId : SessionId
  events : List Event := []
  frames : FrameList Point := {}
  built : Bool := false

namespace Bridge

/-- A bridge for a session. -/
def new (sessionId : SessionId) : Except Error (Bridge Point) :=
  if sessionId = "" then .error (.wrap .invalid "sessionId is required")
  else .ok { sessionId := sessionId }

/-- Validates the events of a batch from an index on. -/
def checkFrom (index : ℕ) : List Event → Except Error Unit
  | [] => .ok ()
  | e :: rest =>
      match e.validate with
      | .error message => .error (.wrap .invalid ("events[" ++ toString index ++ "]: " ++ message))
      | .ok () => checkFrom (index + 1) rest

/-- Validates and accumulates events, invalidating the derived frames. -/
def apply (b : Bridge Point) (events : List Event) : Except Error Unit × Bridge Point :=
  match checkFrom 0 events with
  | .error error => (.error error, b)
  | .ok () => (.ok (), { b with events := b.events ++ events, built := false })

variable (position : ℕ → ℕ → ℕ → NodeId → Point)

/-- Derives the frames if needed and returns them. -/
def frameList (b : Bridge Point) : Except Error (FrameList Point) × Bridge Point :=
  if b.built then (.ok b.frames, b)
  else
    match build position b.sessionId b.events with
    | .error error => (.error error, b)
    | .ok list => (.ok list, { b with frames := list, built := true })

/-- A call of a bridge. -/
inductive Call where
  | apply (events : List Event)
  | frameList

/-- What a call returns. -/
inductive Answer (Point : Type) where
  | applied (result : Except Error Unit)
  | frames (result : Except Error (FrameList Point))

def call (b : Bridge Point) : Call → Bridge Point × Answer Point
  | .apply events => ((b.apply events).2, .applied (b.apply events).1)
  | .frameList => ((b.frameList position).2, .frames (b.frameList position).1)

/-- A bridge under calls. -/
def machine : Machine (Bridge Point) Call (Answer Point) where
  step := call position

/-! ## What the calls do -/

/-- Whether every event of a batch is valid. -/
def Valid (events : List Event) : Prop := ∀ e ∈ events, e.validate = .ok ()

instance (events : List Event) : Decidable (Valid events) :=
  inferInstanceAs (Decidable (∀ e ∈ events, e.validate = .ok ()))

theorem checkFrom_eq_ok {index : ℕ} {events : List Event} :
    checkFrom index events = .ok () ↔ Valid events := by
  induction events generalizing index with
  | nil => simp [checkFrom, Valid]
  | cons e rest ih =>
      rw [checkFrom]
      cases isValid : e.validate with
      | error message => simp [Valid, isValid]
      | ok =>
          simp only [ih]
          simp [Valid, isValid]

variable {position} {b : Bridge Point}

theorem apply_of_valid {events : List Event} (valid : Valid events) :
    b.apply events = (.ok (), { b with events := b.events ++ events, built := false }) := by
  rw [apply, checkFrom_eq_ok.mpr valid]

/-- A batch with an invalid event changes nothing. -/
theorem apply_of_invalid (b : Bridge Point) {events : List Event} (invalid : ¬ Valid events) :
    ∃ error, b.apply events = (.error error, b) := by
  rw [apply]
  cases isChecked : checkFrom 0 events with
  | error error => exact ⟨error, rfl⟩
  | ok => exact absurd (checkFrom_eq_ok.mp isChecked) invalid

/-- Frames that are kept are those of a replay of the events. -/
def Fresh (position : ℕ → ℕ → ℕ → NodeId → Point) (b : Bridge Point) : Prop :=
  b.built = true → build position b.sessionId b.events = .ok b.frames

theorem frameList_of_fresh (fresh : b.Fresh position) :
    (b.frameList position).1 = build position b.sessionId b.events := by
  rw [frameList]
  split
  · rename_i isBuilt
    exact (fresh isBuilt).symm
  · cases build position b.sessionId b.events <;> rfl

variable (position) in
theorem frameList_keeps (b : Bridge Point) :
    (b.frameList position).2.sessionId = b.sessionId ∧
      (b.frameList position).2.events = b.events := by
  rw [frameList]
  split
  · exact ⟨rfl, rfl⟩
  · cases build position b.sessionId b.events <;> exact ⟨rfl, rfl⟩

theorem fresh_frameList (fresh : b.Fresh position) : (b.frameList position).2.Fresh position := by
  rw [frameList]
  split
  · exact fresh
  · cases isBuild : build position b.sessionId b.events with
    | error error => exact fresh
    | ok list => exact fun _ => isBuild

/-- The events that some calls apply, in the order of the calls. -/
def applied (calls : List Call) : List Event :=
  calls.flatMap fun
    | .apply events => if Valid events then events else []
    | .frameList => []

theorem step_spec (fresh : b.Fresh position) (c : Call) :
    ((machine position).step b c).1.Fresh position ∧
      ((machine position).step b c).1.sessionId = b.sessionId ∧
      ((machine position).step b c).1.events = b.events ++ applied [c] := by
  cases c with
  | apply events =>
      by_cases valid : Valid events
      · simp only [machine, call, apply_of_valid valid, applied, List.flatMap_cons,
          List.flatMap_nil, if_pos valid, List.append_nil]
        exact ⟨fun isBuilt => (by cases isBuilt), trivial, trivial⟩
      · rcases apply_of_invalid b valid with ⟨error, isApply⟩
        simp only [machine, call, isApply, applied, List.flatMap_cons, List.flatMap_nil,
          if_neg valid, List.append_nil]
        exact ⟨fresh, trivial, trivial⟩
  | frameList =>
      have keeps := frameList_keeps position b
      simp only [machine, call, applied, List.flatMap_cons, List.flatMap_nil, List.append_nil]
      exact ⟨fresh_frameList fresh, keeps.1, keeps.2⟩

theorem run_spec (fresh : b.Fresh position) (calls : List Call) :
    ((machine position).run b calls).Fresh position ∧
      ((machine position).run b calls).sessionId = b.sessionId ∧
      ((machine position).run b calls).events = b.events ++ applied calls := by
  induction calls generalizing b with
  | nil => exact ⟨fresh, rfl, (List.append_nil _).symm⟩
  | cons c rest ih =>
      rcases step_spec fresh c with ⟨freshNext, sameSession, isEvents⟩
      rcases ih freshNext with ⟨freshLater, sameLater, isLater⟩
      refine ⟨freshLater, sameLater.trans sameSession, ?_⟩
      rw [Machine.run_cons, isLater, isEvents, List.append_assoc]
      simp [applied]

variable (position) in
/-- After every run of calls the frames of a bridge are those of a replay of the events applied
so far, in whatever order, and a batch that fails to validate changed nothing. -/
theorem live_eq_replay {sessionId : SessionId} {start : Bridge Point}
    (isNew : new sessionId = .ok start) (calls : List Call)
    (distinct : ((applied calls).map fun e => e.sequence).Nodup) :
    (∀ events : List Event, events.Perm (applied calls) →
      (((machine position).run start calls).frameList position).1 =
        build position sessionId events) ∧
    ∀ step ∈ (machine position).steps start calls, ∀ events, step.input = .apply events →
      ¬ Valid events →
        step.after = step.before ∧ ∃ error, step.output = .applied (.error error) := by
  have isStart : start = { sessionId := sessionId } := by
    rw [new] at isNew
    split at isNew
    · cases isNew
    · exact (Except.ok.inj isNew).symm
  constructor
  · intro events perm
    have fresh : start.Fresh position := by
      rw [isStart]
      exact fun isBuilt => by cases isBuilt
    rcases run_spec fresh calls with ⟨freshAfter, sameSession, isEvents⟩
    rw [frameList_of_fresh freshAfter, sameSession, isEvents, isStart]
    exact build_congr (sortBy_of_perm perm distinct).symm
  · intro step stepMem events isApply invalid
    have isStep := Machine.step_eq_stepAt stepMem
    rcases apply_of_invalid step.before invalid with ⟨error, applies⟩
    rw [isStep, isApply]
    simp only [Machine.stepAt, machine, call, applies]
    exact ⟨trivial, error, rfl⟩

/-- Two events in two batches, the later one first, with a read between them. -/
def twoBatches : List Call :=
  [.apply [workEvent "e2" 2 "wp2" "e1"], .frameList, .apply [workEvent "e1" 1 "wp1" ""]]

theorem applied_twoBatches :
    applied twoBatches = [workEvent "e2" 2 "wp2" "e1", workEvent "e1" 1 "wp1" ""] := by
  have validLater : Valid [workEvent "e2" 2 "wp2" "e1"] := by decide +kernel
  have validEarlier : Valid [workEvent "e1" 1 "wp1" ""] := by decide +kernel
  simp [applied, twoBatches, validLater, validEarlier]

theorem twoBatches_replayed :
    (((machine plainPosition).run { sessionId := "s1" } twoBatches).frameList plainPosition).1 =
      build plainPosition "s1" [workEvent "e1" 1 "wp1" "", workEvent "e2" 2 "wp2" "e1"] := by
  have isNew : new "s1" = .ok ({ sessionId := "s1" } : Bridge (ℕ × ℕ × ℕ × NodeId)) := rfl
  refine (live_eq_replay plainPosition isNew twoBatches ?_).1 _ ?_
  · rw [applied_twoBatches]
    decide
  · rw [applied_twoBatches]
    exact List.Perm.swap _ _ []

end Bridge

end Aa.Visualizer
