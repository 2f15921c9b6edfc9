import Mathlib.Data.Set.Card
import Aa.Visualizer.Bridge
import Aa.Visualizer.Growth
import Aa.Visualizer.Relations

/-!
# When a live session can be read

A bridge accepts events by their contract and does not look at the metadata in their payloads,
which a replay reads. Its frames can be read exactly if the metadata of all accepted events can,
and if they do not mention and relate too much.
-/

namespace Aa.Visualizer

open Aa.Library Aa.Contracts Session Replay

/-! ## Metadata -/

namespace Compat

/-- Values that are read as strings. -/
def ReadsAsStrings : Json → Prop
  | .null => True
  | .str _ => True
  | .arr items => ∀ item ∈ items, ∃ text, item = .str text
  | _ => False

/-- Events whose metadata, where there is any, is read as strings. -/
def Readable (e : Event) : Prop :=
  ∀ keys ∈ [secondaryPathKeys, accessSequenceKeys], ∀ raw, lookup e.payload keys = some raw →
    ReadsAsStrings raw

theorem itemStrings_iff (field : String) (index : ℕ) {items : List Json} :
    (∃ values, itemStrings field index items = .ok values) ↔
      ∀ item ∈ items, ∃ text, item = .str text := by
  induction items generalizing index with
  | nil => simp [itemStrings]
  | cons item rest ih =>
      rw [List.forall_mem_cons, ← ih (index + 1)]
      cases item
      case str text =>
        simp only [itemStrings, Json.asString]
        cases itemStrings field (index + 1) rest <;> simp [Except.map]
      all_goals simp [itemStrings, Json.asString]

theorem toStrings_iff (field : String) {raw : Json} :
    (∃ values, toStrings field raw = .ok values) ↔ ReadsAsStrings raw := by
  cases raw
  case arr items => exact itemStrings_iff field 0
  case str value =>
    simp only [toStrings, ReadsAsStrings, iff_true]
    split
    · exact ⟨_, rfl⟩
    · exact ⟨_, rfl⟩
  all_goals simp [toStrings, ReadsAsStrings]

theorem stringsAt_iff (payload : Json.Object) (field : String) (keys : List String) :
    (∃ values, stringsAt payload field keys = .ok values) ↔
      ∀ raw, lookup payload keys = some raw → ReadsAsStrings raw := by
  rw [stringsAt]
  cases lookup payload keys with
  | none => simp
  | some raw =>
      simp only [Option.some.injEq, forall_eq']
      rw [← toStrings_iff field]
      cases toStrings field raw <;> simp [Except.map]

theorem normalize_iff {e : Event} : (∃ metadata, normalize e = .ok metadata) ↔ Readable e := by
  have paths := stringsAt_iff e.payload keySecondaryPaths secondaryPathKeys
  have accesses := stringsAt_iff e.payload keyAccessSequence accessSequenceKeys
  simp only [Readable, List.mem_cons, List.not_mem_nil, or_false, forall_eq_or_imp, forall_eq]
  rw [← paths, ← accesses, normalize, normalizePayload]
  cases stringsAt e.payload keySecondaryPaths secondaryPathKeys with
  | error error => simp [bind, Except.bind]
  | ok values =>
      cases stringsAt e.payload keyAccessSequence accessSequenceKeys with
      | error error => simp [bind, Except.bind]
      | ok others => simp [bind, Except.bind, pure, Except.pure]

end Compat

/-! ## Size -/

/-- What some events mention. -/
def mentioned (sessionId : SessionId) (events : List Event) : Set NodeId :=
  {id | ∃ e ∈ events, Mentions sessionId e id}

/-- The relations of some events, in the order of their sequences. -/
def relations (sessionId : SessionId) (events : List Event) : Set (NodeId × NodeId × String) :=
  {relation | Related sessionId (orderedCopy events) relation.1 relation.2.1 relation.2.2}

/-- Events that mention and relate no more than can be laid out. -/
structure Modest (sessionId : SessionId) (events : List Event) : Prop where
  nodes : (mentioned sessionId events).ncard ≤ Layout.defaultBudget.maxNodes
  edges : (relations sessionId events).ncard ≤ Layout.defaultBudget.maxEdges

theorem ncard_of_nodup {α : Type} {values : List α} (nodup : values.Nodup) {members : Set α}
    (isMember : ∀ value, value ∈ values ↔ value ∈ members) : members.ncard = values.length := by
  classical
  have isSet : members = ↑values.toFinset := by
    ext value
    rw [← isMember, Finset.mem_coe, List.mem_toFinset]
  rw [isSet, Set.ncard_coe_finset, List.toFinset_card_of_nodup nodup]

section Size

variable {sessionId : SessionId} {events : List Event} {graph : Graph}

theorem fits_iff (valid : ∀ e ∈ events, e.validate = .ok ())
    (isGraph : project sessionId events = .ok graph) :
    Layout.Fits graph ↔ Modest sessionId events := by
  have wellFormed := wellFormed_of_project (actorsApart_of_valid valid) isGraph
  have nodes : (mentioned sessionId events).ncard = (graph.nodes.map (·.id)).length :=
    ncard_of_nodup wellFormed.nodes (mem_nodes_iff valid isGraph)
  have edges : (relations sessionId events).ncard = (graph.edges.map ends).length :=
    ncard_of_nodup wellFormed.edges fun relation =>
      mem_edges_iff valid isGraph relation.1 relation.2.1 relation.2.2
  rw [List.length_map] at nodes edges
  constructor
  · exact fun fits => ⟨nodes ▸ fits.1, edges ▸ fits.2⟩
  · exact fun modest => ⟨nodes ▸ modest.nodes, edges ▸ modest.edges⟩

theorem fits_of_grows {earlier later : Graph} (grows : Grows earlier later)
    (wellFormed : WellFormed sessionId events earlier) (fits : Layout.Fits later) :
    Layout.Fits earlier := by
  have nodes : (earlier.nodes.map (·.id)).length ≤ (later.nodes.map (·.id)).length := by
    refine (wellFormed.nodes.subperm ?_).length_le
    intro id isNode
    rcases List.mem_map.mp isNode with ⟨node, isThere, rfl⟩
    rcases grows.nodes node isThere with ⟨metadata, isKept⟩
    exact List.mem_map.mpr ⟨_, isKept, rfl⟩
  have edges : (earlier.edges.map ends).length ≤ (later.edges.map ends).length := by
    refine (wellFormed.edges.subperm ?_).length_le
    exact List.map_subset ends grows.edges
  rw [List.length_map, List.length_map] at nodes edges
  exact ⟨nodes.trans fits.1, edges.trans fits.2⟩

end Size

/-! ## Replay -/

section Build

variable {Point : Type} {position : ℕ → ℕ → ℕ → NodeId → Point} {sessionId : SessionId}
  {events : List Event}

theorem fits_of_layout {graph : Graph} {placement : Layout.Placement Point}
    (isPlaced : Layout.layout position graph = .ok placement) : Layout.Fits graph := by
  rw [Layout.layout, Layout.layoutBudgeted] at isPlaced
  split at isPlaced
  · cases isPlaced
  · split at isPlaced
    · cases isPlaced
    · rename_i fewNodes fewEdges
      exact ⟨not_lt.mp fewNodes, not_lt.mp fewEdges⟩

/-- The last frame is a projection of all of the events. -/
theorem project_of_framesFrom {ordered rest : List Event} {index : ℕ} {frames : List (Frame Point)}
    (nonempty : rest ≠ [])
    (isFrames : framesFrom position sessionId ordered index rest = .ok frames) :
    ∃ graph, project sessionId (ordered.take (index + rest.length)) = .ok graph ∧
      Layout.Fits graph := by
  induction rest generalizing index frames with
  | nil => exact absurd rfl nonempty
  | cons e rest ih =>
      rw [framesFrom] at isFrames
      cases isGraph : project sessionId (ordered.take (index + 1)) with
      | error error => simp [isGraph] at isFrames
      | ok graph =>
          cases isPlaced : Layout.layout position graph with
          | error error => simp [isGraph, isPlaced] at isFrames
          | ok placement =>
              cases rest with
              | nil => exact ⟨graph, isGraph, fits_of_layout isPlaced⟩
              | cons next others =>
                  cases isRest : framesFrom position sessionId ordered (index + 1)
                      (next :: others) with
                  | error error => simp [isGraph, isPlaced, isRest, Except.map] at isFrames
                  | ok later =>
                      rcases ih (by simp) isRest with ⟨last, isLast, fits⟩
                      refine ⟨last, ?_, fits⟩
                      rw [List.length_cons, ← Nat.add_assoc, Nat.add_right_comm]
                      exact isLast

theorem fine_iff : firstFailure (orderedCopy events) = none ↔ ∀ e ∈ events, Compat.Readable e := by
  rw [firstFailure, List.findSome?_eq_none_iff]
  refine ⟨fun fine e isEvent => ?_, fun readable e isEvent => ?_⟩
  · refine Compat.normalize_iff.mp ?_
    have isFine := fine e (mem_sortBy.mpr isEvent)
    cases isNormal : Compat.normalize e with
    | error error => simp [failureOf, isNormal] at isFine
    | ok metadata => exact ⟨metadata, rfl⟩
  · rcases Compat.normalize_iff.mpr (readable e (mem_sortBy.mp isEvent)) with ⟨metadata, isNormal⟩
    rw [failureOf, isNormal]

/-- Valid events can be replayed exactly if their metadata is readable and their graph is not too
large. -/
theorem build_iff (named : sessionId ≠ "") (nonempty : events ≠ [])
    (valid : ∀ e ∈ events, e.validate = .ok ()) :
    (∃ list, build position sessionId events = .ok list) ↔
      (∀ e ∈ events, Compat.Readable e) ∧ Modest sessionId events := by
  have orderedNonempty : orderedCopy events ≠ [] := fun isEmpty =>
    nonempty (sortBy_eq_nil.mp isEmpty)
  have sorted : (orderedCopy events).Pairwise InOrder := sortBy_sorted events
  have again : orderedCopy (orderedCopy events) = orderedCopy events := sortBy_of_sorted sorted
  rw [build, if_neg named, if_neg nonempty]
  constructor
  · rintro ⟨list, isBuilt⟩
    cases isFrames : framesFrom position sessionId (orderedCopy events) 0 (orderedCopy events) with
    | error error => simp [isFrames, Except.map] at isBuilt
    | ok frames =>
        rcases project_of_framesFrom orderedNonempty isFrames with ⟨graph, isGraph, fits⟩
        rw [Nat.zero_add, List.take_length] at isGraph
        rw [project_congr again] at isGraph
        refine ⟨fine_iff.mp ?_, (fits_iff valid isGraph).mp fits⟩
        cases isFailure : firstFailure (orderedCopy events) with
        | none => rfl
        | some error =>
            rw [project_of_failure named isFailure] at isGraph
            cases isGraph
  · rintro ⟨readable, modest⟩
    have fine := fine_iff.mpr readable
    rcases project_of_fine named nonempty fine with ⟨graph, isGraph⟩
    have fits := (fits_iff valid isGraph).mpr modest
    rw [← project_congr again] at isGraph
    have apart : ActorsApart (orderedCopy events) := fun e isEvent =>
      actorsApart_of_valid valid e (mem_sortBy.mp isEvent)
    have fitsAll : ∀ count prior,
        project sessionId ((orderedCopy events).take count) = .ok prior → Layout.Fits prior := by
      intro count prior isPrior
      have isWhole : (orderedCopy events).take (max count (orderedCopy events).length) =
          orderedCopy events := List.take_of_length_le (le_max_right _ _)
      rw [← isWhole] at isGraph
      have grows := grows_of_take sorted apart (le_max_left _ _) isPrior isGraph
      have apartPrior : ActorsApart ((orderedCopy events).take count) := fun e isEvent =>
        apart e (List.mem_of_mem_take isEvent)
      exact fits_of_grows grows (wellFormed_of_project apartPrior isPrior) fits
    rcases (framesFrom_spec position named sorted fitsAll (List.nil_append _).symm rfl).2 fine with
      ⟨frames, isFrames, -⟩
    rw [List.length_nil] at isFrames
    exact ⟨{ sessionId := sessionId, frames := frames }, by rw [isFrames]; rfl⟩

/-- Up to 49999 events are not too many. -/
theorem modest_of_length (named : sessionId ≠ "") (nonempty : events ≠ [])
    (valid : ∀ e ∈ events, e.validate = .ok ()) (readable : ∀ e ∈ events, Compat.Readable e)
    (few : events.length ≤ 49999) : Modest sessionId events := by
  rcases project_of_fine named nonempty (fine_iff.mpr readable) with ⟨graph, isGraph⟩
  refine (fits_iff valid isGraph).mp ?_
  refine withinBudget_of_length sessionId few events (.refl events) events.length graph ?_
  rw [List.take_length]
  exact isGraph

end Build

/-! ## Live sessions -/

namespace Bridge

variable {Point : Type}

theorem valid_of_applied {calls : List Call} :
    ∀ e ∈ applied calls, e.validate = .ok () := by
  intro e isApplied
  rcases List.mem_flatMap.mp isApplied with ⟨call, -, isEvent⟩
  cases call with
  | frameList => cases isEvent
  | apply events =>
      by_cases valid : Valid events
      · simp only [if_pos valid] at isEvent
        exact valid e isEvent
      · simp only [if_neg valid] at isEvent
        cases isEvent

/-- After every run of calls in which an event was accepted, the frames can be read exactly if the
metadata of all accepted events can be, and if these do not mention and relate too much. -/
theorem readable_iff (position : ℕ → ℕ → ℕ → NodeId → Point) {sessionId : SessionId}
    {start : Bridge Point} (isNew : new sessionId = .ok start) (calls : List Call)
    (nonempty : applied calls ≠ []) :
    (∃ list, (((machine position).run start calls).frameList position).1 = .ok list) ↔
      (∀ e ∈ applied calls, Compat.Readable e) ∧ Modest sessionId (applied calls) := by
  rw [new] at isNew
  split at isNew
  · cases isNew
  · rename_i named
    cases isNew
    have fresh : ({ sessionId := sessionId } : Bridge Point).Fresh position := by
      intro isBuilt
      cases isBuilt
    rcases run_spec fresh calls with ⟨freshAfter, sameSession, isEvents⟩
    rw [frameList_of_fresh freshAfter, sameSession, isEvents, List.nil_append]
    exact build_iff named nonempty valid_of_applied

theorem twoBatches_readable :
    ∃ list, (((machine plainPosition).run { sessionId := "s1" } twoBatches).frameList
      plainPosition).1 = .ok list := by
  have isNew : new "s1" = .ok ({ sessionId := "s1" } : Bridge (ℕ × ℕ × ℕ × NodeId)) := rfl
  have nonempty : applied twoBatches ≠ [] := by simp [applied_twoBatches]
  have readable : ∀ e ∈ applied twoBatches, Compat.Readable e := by
    rw [applied_twoBatches]
    intro e isEvent
    refine Compat.normalize_iff.mp ?_
    rcases List.mem_pair.mp isEvent with rfl | rfl <;> exact ⟨{}, rfl⟩
  have few : (applied twoBatches).length ≤ 49999 := by simp [applied_twoBatches]
  exact (readable_iff plainPosition isNew twoBatches nonempty).mpr
    ⟨readable, modest_of_length (by decide) nonempty valid_of_applied readable few⟩

/-- An event whose secondary paths are a number. -/
def numberedPaths : Event :=
  { workEvent "e1" 1 "wp1" "" with payload := [("secondary_paths", .num 7)] }

/-- The event is accepted, and no frames can be read from then on. -/
theorem numberedPaths_unreadable :
    (({ sessionId := "s1" } : Bridge (ℕ × ℕ × ℕ × NodeId)).apply [numberedPaths]).1 = .ok () ∧
    ¬ ∀ calls : List Call, applied calls ≠ [] → ∃ list,
      (((machine plainPosition).run { sessionId := "s1" } calls).frameList plainPosition).1 =
        .ok list := by
  have valid : Valid [numberedPaths] := by decide +kernel
  refine ⟨by rw [apply_of_valid valid], fun readable => ?_⟩
  have isApplied : applied [.apply [numberedPaths]] = [numberedPaths] := by simp [applied, valid]
  rcases readable [.apply [numberedPaths]] (by simp [isApplied]) with ⟨list, isList⟩
  have fails : (((machine plainPosition).run { sessionId := "s1" }
      [.apply [numberedPaths]]).frameList plainPosition).1.isOk = false := by decide +kernel
  rw [isList] at fails
  cases fails

end Bridge

end Aa.Visualizer
