import Aa.Visualizer.Replay

/-!
# Orders of delivery

Projection and replay are the same in every order of delivery if the events have
different sequences. Events of one sequence are replayed in the order of delivery, so
that otherwise only a failure that every order has in common makes up for them.
-/

namespace Aa.Visualizer

open Aa.Library Aa.Contracts Session Replay

variable {Point : Type} (position : ℕ → ℕ → ℕ → NodeId → Point)

/-- Whether every order of delivery gives the same graph and the same frames. -/
def OrderIndependent (sessionId : SessionId) (events : List Event) : Prop :=
  ∀ order : List Event, order.Perm events →
    project sessionId order = project sessionId events ∧
      build position sessionId order = build position sessionId events

/-- Whether some metadata fails, and all that fails at the least sequence fails alike. -/
def FailsAlike (events : List Event) : Prop :=
  ∃ error, ∃ first ∈ events, Compat.normalize first = .error error ∧
    ∀ e ∈ events, ∀ other, Compat.normalize e = .error other →
      first.sequence ≤ e.sequence ∧ (e.sequence = first.sequence → other = error)

variable {position} {sessionId : SessionId} {events order : List Event}

theorem orderedCopy_eq_nil : orderedCopy events = [] ↔ events = [] := sortBy_eq_nil

theorem project_congr {first second : List Event} (same : orderedCopy first = orderedCopy second) :
    project sessionId first = project sessionId second := by
  simp only [project, same]

theorem build_congr {first second : List Event} (same : orderedCopy first = orderedCopy second) :
    build position sessionId first = build position sessionId second := by
  have sameEmpty : first = [] ↔ second = [] := by
    rw [← orderedCopy_eq_nil, same, orderedCopy_eq_nil]
  simp only [build, same, sameEmpty]

/-- Events of different sequences. -/
theorem orderIndependent_of_distinct (distinct : (events.map fun e => e.sequence).Nodup) :
    OrderIndependent position sessionId events := by
  intro order perm
  have same : orderedCopy order = orderedCopy events := sortBy_of_perm perm distinct
  exact ⟨project_congr same, build_congr same⟩

/-- An unnamed session is refused. -/
theorem orderIndependent_of_unnamed : OrderIndependent position "" events := by
  intro order perm
  exact ⟨rfl, rfl⟩

/-- Which event fails first. -/
theorem firstFailure_eq_some {error : Error} :
    firstFailure events = some error ↔
      ∃ e, events.find? (fun e => (failureOf e).isSome) = some e ∧ failureOf e = some error := by
  induction events with
  | nil => simp [firstFailure]
  | cons e rest ih =>
      simp only [firstFailure] at ih ⊢
      cases here : failureOf e with
      | none => simp [here, ih]
      | some other => simp [here]

theorem isSome_failureOf {e : Event} :
    (failureOf e).isSome ↔ ∃ error, Compat.normalize e = .error error := by
  rw [Option.isSome_iff_exists]
  simp only [failureOf_eq_some]

/-- Events that fail alike fail with one error in every order. -/
theorem firstFailure_of_failsAlike (alike : FailsAlike events) :
    ∃ error, ∀ order : List Event, order.Perm events →
      firstFailure (orderedCopy order) = some error := by
  rcases alike with ⟨error, first, firstMem, firstFails, least⟩
  refine ⟨error, fun order perm => ?_⟩
  cases isFound : (orderedCopy order).find? (fun e => (failureOf e).isSome) with
  | none =>
      have fine := List.find?_eq_none.mp isFound first (mem_sortBy.mpr (perm.mem_iff.mpr firstMem))
      exact absurd (isSome_failureOf.mpr ⟨error, firstFails⟩) fine
  | some found =>
      rcases find?_sortBy isFound with ⟨foundMem, foundFails, foundLeast⟩
      rcases isSome_failureOf.mp foundFails with ⟨other, isOther⟩
      rcases least found (perm.mem_iff.mp foundMem) other isOther with ⟨below, alike⟩
      have above := foundLeast first (perm.mem_iff.mpr firstMem)
        (isSome_failureOf.mpr ⟨error, firstFails⟩)
      have isError : other = error := alike (le_antisymm above below)
      exact firstFailure_eq_some.mpr ⟨found, isFound, by rw [failureOf_eq_some.mpr isOther, isError]⟩

/-- Events that fail alike make projection and replay fail alike in every order. -/
theorem orderIndependent_of_failsAlike (fits : WithinBudget sessionId events)
    (alike : FailsAlike events) : OrderIndependent position sessionId events := by
  by_cases named : sessionId = ""
  · rw [named]
    exact orderIndependent_of_unnamed
  · rcases firstFailure_of_failsAlike alike with ⟨error, fails⟩
    have nonempty : events ≠ [] := by
      rcases alike with ⟨_, first, firstMem, _⟩
      exact List.ne_nil_of_mem firstMem
    have failsWith {order : List Event} (perm : order.Perm events) :
        project sessionId order = .error error ∧
          build position sessionId order = .error error := by
      have nonemptyOrder : order ≠ [] := by
        intro isEmpty
        rw [isEmpty] at perm
        exact nonempty (List.nil_perm.mp perm)
      have fitsOrder : WithinBudget sessionId order := fun again againPerm =>
        fits again (againPerm.trans perm)
      exact ⟨project_of_failure named (fails order perm),
        (build_spec position named nonemptyOrder fitsOrder).1 error (fails order perm)⟩
    intro order perm
    rw [(failsWith perm).1, (failsWith perm).2, (failsWith (.refl events)).1,
      (failsWith (.refl events)).2]
    exact ⟨rfl, rfl⟩

/-- Lists of events with different ids are the same if their ids are. -/
theorem eq_of_map_eq {first second : List Event} (ids : (events.map fun e => e.id).Nodup)
    (firstMem : ∀ e ∈ first, e ∈ events) (secondMem : ∀ e ∈ second, e ∈ events)
    (sameIds : (first.map fun e => e.id) = second.map fun e => e.id) : first = second := by
  have sameLength : first.length = second.length := by
    simpa using congrArg List.length sameIds
  apply List.ext_getElem sameLength
  intro index isFirst isSecond
  have sameId : first[index].id = second[index].id := by
    have ofMap := List.getElem_of_eq sameIds (by simpa using isFirst : index < _)
    simpa using ofMap
  exact List.inj_on_of_nodup_map ids (firstMem _ (List.getElem_mem isFirst))
    (secondMem _ (List.getElem_mem isSecond)) sameId

/-- Where nothing fails, order independence needs different sequences: two events of one
sequence are replayed in the order of delivery. -/
theorem distinct_of_orderIndependent (named : sessionId ≠ "") (fits : WithinBudget sessionId events)
    (ids : (events.map fun e => e.id).Nodup) (fine : ∀ e ∈ events, failureOf e = none)
    (independent : OrderIndependent position sessionId events) :
    (events.map fun e => e.sequence).Nodup := by
  by_contra shared
  rw [List.Nodup, List.pairwise_map, List.pairwise_iff_forall_sublist] at shared
  push Not at shared
  rcases shared with ⟨first, second, isSublist, sameSequence⟩
  have different : first ≠ second := by
    rintro rfl
    have twice := ids.sublist (isSublist.map fun e => e.id)
    simp at twice
  rcases isSublist.exists_perm_append with ⟨rest, perm⟩
  have replayed {order : List Event} (orderPerm : order.Perm events) :
      ∃ list, build position sessionId events = .ok list ∧
        list.frames.map Frame.eventId = (orderedCopy order).map fun e => e.id := by
    have nonempty : order ≠ [] := by
      intro isEmpty
      have noEvents := List.nil_perm.mp (isEmpty ▸ orderPerm)
      rw [noEvents] at isSublist
      cases isSublist
    have fineOrder : firstFailure (orderedCopy order) = none :=
      List.findSome?_eq_none_iff.mpr fun e isThere =>
        fine e (orderPerm.mem_iff.mp (mem_sortBy.mp isThere))
    rcases (build_spec position named nonempty fun again againPerm =>
      fits again (againPerm.trans orderPerm)).2 fineOrder with ⟨list, isList, frames⟩
    exact ⟨list, (independent order orderPerm).2 ▸ isList, frames⟩
  have onePerm : (first :: second :: rest).Perm events := perm.symm
  have otherPerm : (second :: first :: rest).Perm events :=
    (List.Perm.swap first second rest).trans onePerm
  rcases replayed onePerm with ⟨list, isList, frames⟩
  rcases replayed otherPerm with ⟨other, isOther, otherFrames⟩
  have sameList : list = other := by
    rw [isList] at isOther
    exact Except.ok.inj isOther
  rw [← sameList, frames] at otherFrames
  have sameOrder : orderedCopy (first :: second :: rest) = orderedCopy (second :: first :: rest) :=
    eq_of_map_eq ids (fun e isThere => onePerm.mem_iff.mp (mem_sortBy.mp isThere))
      (fun e isThere => otherPerm.mem_iff.mp (mem_sortBy.mp isThere)) otherFrames
  exact sortBy_swap_ne different sameSequence rest sameOrder

/-- Where something fails, order independence needs all that fails first to fail alike. -/
theorem failsAlike_of_orderIndependent (named : sessionId ≠ "")
    (someFails : ∃ e ∈ events, (failureOf e).isSome)
    (independent : OrderIndependent position sessionId events) : FailsAlike events := by
  cases isFound : (orderedCopy events).find? (fun e => (failureOf e).isSome) with
  | none =>
      rcases someFails with ⟨e, isThere, fails⟩
      exact absurd fails (List.find?_eq_none.mp isFound e (mem_sortBy.mpr isThere))
  | some found =>
      rcases find?_sortBy isFound with ⟨foundMem, foundFails, foundLeast⟩
      rcases isSome_failureOf.mp foundFails with ⟨error, isError⟩
      have failsFirst : project sessionId events = .error error :=
        project_of_failure named
          (firstFailure_eq_some.mpr ⟨found, isFound, failureOf_eq_some.mpr isError⟩)
      refine ⟨error, found, foundMem, isError, fun e isThere other isOther => ?_⟩
      have fails : (failureOf e).isSome := isSome_failureOf.mpr ⟨other, isOther⟩
      refine ⟨foundLeast e isThere fails, fun sameSequence => ?_⟩
      -- Delivered first, the event is the first to fail.
      rcases List.append_of_mem isThere with ⟨before, after, isSplit⟩
      have perm : (e :: (before ++ after)).Perm events := by
        rw [isSplit]
        exact List.perm_middle.symm
      have isFirst : (orderedCopy (e :: (before ++ after))).find? (fun e => (failureOf e).isSome) =
          some e := by
        refine find?_sortBy_cons fails fun later isLater laterFails => ?_
        rw [sameSequence]
        exact foundLeast later (perm.mem_iff.mp (List.mem_cons_of_mem e isLater)) laterFails
      have failsNow : project sessionId (e :: (before ++ after)) = .error other :=
        project_of_failure named
          (firstFailure_eq_some.mpr ⟨e, isFirst, failureOf_eq_some.mpr isOther⟩)
      have same := (independent _ perm).1
      rw [failsNow, failsFirst] at same
      exact Except.error.inj same

variable (position) in
/-- Events of different sequences give the same graph and frames in every order of delivery. As
long as no graph is too large to be laid out, only an unnamed session and metadata that fails
alike in every order do so otherwise. -/
theorem orderIndependent_iff (sessionId : SessionId) (events : List Event)
    (ids : (events.map fun e => e.id).Nodup) :
    ((events.map fun e => e.sequence).Nodup → OrderIndependent position sessionId events) ∧
    (WithinBudget sessionId events →
      (OrderIndependent position sessionId events ↔
        sessionId = "" ∨ (events.map fun e => e.sequence).Nodup ∨ FailsAlike events)) := by
  refine ⟨orderIndependent_of_distinct, fun fits => ⟨fun independent => ?_, ?_⟩⟩
  · by_cases named : sessionId = ""
    · exact .inl named
    · right
      by_cases someFails : ∃ e ∈ events, (failureOf e).isSome
      · exact .inr (failsAlike_of_orderIndependent named someFails independent)
      · left
        refine distinct_of_orderIndependent named fits ids (fun e isThere => ?_) independent
        by_contra fails
        exact someFails ⟨e, isThere, Option.isSome_iff_ne_none.mpr fails⟩
  · rintro (rfl | distinct | alike)
    · exact orderIndependent_of_unnamed
    · exact orderIndependent_of_distinct distinct
    · exact orderIndependent_of_failsAlike fits alike

/-- An event of a worker on a work package. -/
def workEvent (id : String) (sequence : ℤ) (aggregate : String) (causationId : String) : Event where
  contractVersion := "1.0"
  kind := "event"
  id := id
  projectId := "p1"
  sequence := sequence
  occurredAt := "2026-01-01T00:00:01Z"
  type := "WORK_PACKAGE_CREATED"
  aggregate := { kind := "work_package", id := aggregate }
  actor := { kind := "agent", id := "worker_1" }
  causationId := causationId

/-- Positions that show the layer, the place and the id of each node. -/
def plainPosition (layer count index : ℕ) (id : NodeId) : ℕ × ℕ × ℕ × NodeId :=
  (layer, count, index, id)

theorem twoEvents_independent :
    OrderIndependent plainPosition "s1" [workEvent "e1" 1 "wp1" "", workEvent "e2" 2 "wp2" "e1"] :=
  (orderIndependent_iff plainPosition "s1"
    [workEvent "e1" 1 "wp1" "", workEvent "e2" 2 "wp2" "e1"] (by decide)).1 (by decide)

/-- Of two events of one sequence the second names the first as its cause, which is seen only if
it is delivered after it. -/
theorem tiedEvents_dependent :
    (∀ e ∈ [workEvent "e1" 1 "wp1" "", workEvent "e2" 1 "wp2" "e1"], e.validate = .ok ()) ∧
    ¬ OrderIndependent plainPosition "s1"
      [workEvent "e1" 1 "wp1" "", workEvent "e2" 1 "wp2" "e1"] := by
  refine ⟨?_, fun independent => ?_⟩
  · decide +kernel
  · have same := (independent [workEvent "e2" 1 "wp2" "e1", workEvent "e1" 1 "wp1" ""]
      (List.Perm.swap _ _ [])).1
    have sameCount := congrArg (Except.map fun graph => graph.edges.length) same
    revert sameCount
    decide +kernel

end Aa.Visualizer
