import Mathlib.Data.List.Basic
import Mathlib.Logic.Function.Basic

/-!
# Event loops

Several owners with a state each share one loop that runs their callbacks in the order in
which they were queued. What an owner sees of the queue is its own callbacks, in order.
An invariant of each owner's state and callbacks is kept by what changes one owner.
-/

namespace Aa.Library

universe u v w

/-- The states of the owners and the callbacks that are due. -/
structure EventLoop (ι : Type u) (σ : Type v) (η : Type w) where
  states : ι → Option σ := fun _ => none
  ready : List (ι × η) := []

namespace EventLoop

variable {ι : Type u} {σ : Type v} {η : Type w} [DecidableEq ι] {loop : EventLoop ι σ η}
  {owner other : ι} {state : σ} {queued : List η} {handle : η} {rest : List (ι × η)}

/-- The callbacks of one owner, in order. -/
def own (loop : EventLoop ι σ η) (owner : ι) : List η :=
  (loop.ready.filter (·.1 = owner)).map Prod.snd

/-- Sets the state of an owner and queues callbacks for it. -/
def put (loop : EventLoop ι σ η) (owner : ι) (state : σ) (queued : List η) : EventLoop ι σ η where
  states := Function.update loop.states owner (some state)
  ready := loop.ready ++ queued.map (owner, ·)

@[simp]
theorem states_put_self : (loop.put owner state queued).states owner = some state := by
  simp [put]

theorem states_put_of_ne (isOther : other ≠ owner) :
    (loop.put owner state queued).states other = loop.states other := by
  simp [put, isOther]

@[simp]
theorem own_put_self : (loop.put owner state queued).own owner = loop.own owner ++ queued := by
  simp [put, own, List.filter_map, Function.comp_def]

theorem own_put_of_ne (isOther : other ≠ owner) :
    (loop.put owner state queued).own other = loop.own other := by
  simp [put, own, List.filter_map, Function.comp_def, Ne.symm isOther]

/-- The callback that is due belongs to its owner. -/
theorem own_of_ready (isReady : loop.ready = (owner, handle) :: rest) :
    loop.own owner = handle :: { loop with ready := rest }.own owner := by
  simp [own, isReady]

theorem own_of_ready_of_ne (isReady : loop.ready = (owner, handle) :: rest)
    (isOther : other ≠ owner) : { loop with ready := rest }.own other = loop.own other := by
  simp [own, isReady, Ne.symm isOther]

/-- Every owner's state and callbacks satisfy `holds`; who has no state has no callbacks. -/
structure Each (holds : σ → List η → Prop) (loop : EventLoop ι σ η) : Prop where
  state : ∀ owner state, loop.states owner = some state → holds state (loop.own owner)
  absent : ∀ owner, loop.states owner = none → loop.own owner = []

namespace Each

variable {holds : σ → List η → Prop}

theorem empty : Each holds ({} : EventLoop ι σ η) where
  state owner state isState := by cases isState
  absent owner _ := rfl

theorem put (each : Each holds loop) (here : holds state (loop.own owner ++ queued)) :
    Each holds (loop.put owner state queued) where
  state other known isKnown := by
    by_cases isSame : other = owner
    · subst isSame
      rw [states_put_self] at isKnown
      cases isKnown
      rwa [own_put_self]
    · rw [states_put_of_ne isSame] at isKnown
      rw [own_put_of_ne isSame]
      exact each.state other known isKnown
  absent other isAbsent := by
    by_cases isSame : other = owner
    · subst isSame
      rw [states_put_self] at isAbsent
      cases isAbsent
    · rw [states_put_of_ne isSame] at isAbsent
      rw [own_put_of_ne isSame]
      exact each.absent other isAbsent

/-- What the callback that is due leaves behind. -/
theorem put_of_ready (each : Each holds loop) (isReady : loop.ready = (owner, handle) :: rest)
    (here : holds state ({ loop with ready := rest }.own owner ++ queued)) :
    Each holds ({ loop with ready := rest }.put owner state queued) where
  state other known isKnown := by
    by_cases isSame : other = owner
    · subst isSame
      rw [states_put_self] at isKnown
      cases isKnown
      rwa [own_put_self]
    · rw [states_put_of_ne isSame] at isKnown
      rw [own_put_of_ne isSame, own_of_ready_of_ne isReady isSame]
      exact each.state other known isKnown
  absent other isAbsent := by
    by_cases isSame : other = owner
    · subst isSame
      rw [states_put_self] at isAbsent
      cases isAbsent
    · rw [states_put_of_ne isSame] at isAbsent
      rw [own_put_of_ne isSame, own_of_ready_of_ne isReady isSame]
      exact each.absent other isAbsent

end Each

end EventLoop

end Aa.Library
