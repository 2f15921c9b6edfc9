import Aa.Library.Incremental
import Aa.Visualizer.Replay

/-!
# Retention of a trail

A trail of frames is trimmed to the frames at or above a sequence floor, and of these to
the last ones of at most a number, with new indices. A trail may be trimmed at any time: a
live trail that is trimmed after every batch of frames is the trimmed trail of all frames.
-/

namespace Aa.Visualizer.Retention

open Aa.Library Replay

/-- Bounds a projected trail: zero or less is no limit and no floor. -/
structure Policy where
  maxFrames : ℤ := 0
  minSequence : ℤ := 0

/-- Retains every frame. -/
def defaultPolicy : Policy := {}

variable {Point : Type}

/-- The frames that the loop over the trail keeps. -/
def aboveFloor (p : Policy) (frames : List (Frame Point)) : List (Frame Point) :=
  frames.filter fun f => !(0 < p.minSequence && f.sequence < p.minSequence)

def mostRecent (p : Policy) (kept : List (Frame Point)) : List (Frame Point) :=
  if 0 < p.maxFrames ∧ p.maxFrames < kept.length then keepLast p.maxFrames.toNat kept else kept

/-- The frames with their indices counted from 0. -/
def reindex (kept : List (Frame Point)) : List (Frame Point) :=
  kept.mapIdx fun i f => { f with index := i }

/-- The trail with the policy applied. -/
def trim (frames : List (Frame Point)) (p : Policy) : List (Frame Point) :=
  reindex (mostRecent p (aboveFloor p frames))

def trimList (list : FrameList Point) (p : Policy) : FrameList Point :=
  { sessionId := list.sessionId, frames := trim list.frames p }

/-! ## What is kept -/

/-- The frame apart from its index. -/
def content (f : Frame Point) : Frame Point := { f with index := 0 }

/-- The frame is at or above the floor, if there is one. -/
def Permitted (p : Policy) (f : Frame Point) : Prop :=
  p.minSequence ≤ 0 ∨ p.minSequence ≤ f.sequence

instance (p : Policy) (f : Frame Point) : Decidable (Permitted p f) :=
  inferInstanceAs (Decidable (_ ∨ _))

/-- Frames in non-decreasing order of their sequences. -/
def Ordered (frames : List (Frame Point)) : Prop :=
  frames.Pairwise fun earlier later => earlier.sequence ≤ later.sequence

/-- What a trail retains of the frames: of those at or above the floor the newest, as many
as the maximum allows, with the indices from 0 on. -/
structure Retains (p : Policy) (frames kept : List (Frame Point)) : Prop where
  newest : ∃ older newer, frames.filter (Permitted p ·) = older ++ newer ∧
    kept.map content = newer.map content ∧
    ∀ dropped ∈ older, ∀ f ∈ newer, dropped.sequence ≤ f.sequence
  count : kept.length =
    if 0 < p.maxFrames then min p.maxFrames.toNat (frames.filter (Permitted p ·)).length
    else (frames.filter (Permitted p ·)).length
  indices : kept.map (·.index) = List.range kept.length

theorem aboveFloor_eq (p : Policy) (frames : List (Frame Point)) :
    aboveFloor p frames = frames.filter (Permitted p ·) := by
  refine List.filter_congr fun f _ => ?_
  rw [Bool.eq_iff_iff, decide_eq_true_iff, Permitted]
  simp only [Bool.not_eq_true', Bool.and_eq_false_iff, decide_eq_false_iff_not]
  omega

/-- The maximum with no limit read as the length itself. -/
theorem mostRecent_eq (p : Policy) (kept : List (Frame Point)) :
    mostRecent p kept =
      if 0 < p.maxFrames then keepLast p.maxFrames.toNat kept else kept := by
  rw [mostRecent]
  by_cases isLimited : 0 < p.maxFrames
  · rw [if_pos isLimited]
    by_cases isLong : p.maxFrames < kept.length
    · rw [if_pos ⟨isLimited, isLong⟩]
    · rw [if_neg (fun limits => isLong limits.2), keepLast_of_length_le (by omega)]
  · rw [if_neg isLimited, if_neg (fun limits => isLimited limits.1)]

theorem content_reindex (kept : List (Frame Point)) :
    (reindex kept).map content = kept.map content := by
  refine List.ext_getElem (by simp [reindex]) fun i _ _ => ?_
  simp [reindex, content]

theorem length_reindex (kept : List (Frame Point)) : (reindex kept).length = kept.length := by
  simp [reindex]

theorem indices_reindex (kept : List (Frame Point)) :
    (reindex kept).map (·.index) = List.range kept.length := by
  refine List.ext_getElem (by simp [reindex]) fun i inMapped inRange => ?_
  simp [reindex]

theorem reindex_congr {first second : List (Frame Point)}
    (same : first.map content = second.map content) : reindex first = reindex second := by
  have isContent (kept : List (Frame Point)) :
      reindex kept = (kept.map content).mapIdx fun i f => { f with index := i } := by
    refine List.ext_getElem (by simp [reindex]) fun i _ _ => ?_
    simp [reindex, content]
  rw [isContent, isContent, same]

theorem aboveFloor_content (p : Policy) (frames : List (Frame Point)) :
    (aboveFloor p frames).map content = aboveFloor p (frames.map content) := by
  rw [aboveFloor, aboveFloor, List.filter_map]
  rfl

theorem mostRecent_content (p : Policy) (kept : List (Frame Point)) :
    (mostRecent p kept).map content = mostRecent p (kept.map content) := by
  rw [mostRecent_eq, mostRecent_eq]
  split
  · rw [map_keepLast]
  · rfl

theorem mostRecent_incremental (p : Policy) :
    Incremental (mostRecent p : List (Frame Point) → List (Frame Point)) := by
  have isEither : (mostRecent p : List (Frame Point) → List (Frame Point)) =
      if 0 < p.maxFrames then keepLast p.maxFrames.toNat else id := by
    funext kept
    rw [mostRecent_eq]
    split <;> rfl
  rw [isEither]
  split
  · exact .keepLast _
  · exact fun _ _ => rfl

theorem mostRecent_subset (p : Policy) (kept : List (Frame Point)) :
    mostRecent p kept ⊆ kept := by
  rw [mostRecent]
  split
  · exact List.drop_subset _ _
  · exact fun _ => id

/-- Trimming early loses nothing. -/
theorem trim_early (p : Policy) :
    Incremental fun frames : List (Frame Point) => trim frames p := by
  have stays (frames : List (Frame Point)) :
      aboveFloor p (mostRecent p (aboveFloor p frames)) = mostRecent p (aboveFloor p frames) :=
    List.filter_eq_self.mpr fun f isKept =>
      (List.mem_filter.mp (mostRecent_subset p _ isKept)).2
  have kept : Incremental fun frames : List (Frame Point) => mostRecent p (aboveFloor p frames) :=
    (mostRecent_incremental p).comp (fun _ _ => List.filter_append ..) stays
  refine kept.labelled (fun first second same => ?_) (fun _ _ => reindex_congr) content_reindex
  simp only [mostRecent_content, aboveFloor_content, same]

theorem trim_retains (p : Policy) {frames : List (Frame Point)} (ordered : Ordered frames) :
    Retains p frames (trim frames p) := by
  have isCount : (mostRecent p (aboveFloor p frames)).length =
      if 0 < p.maxFrames then min p.maxFrames.toNat (frames.filter (Permitted p ·)).length
      else (frames.filter (Permitted p ·)).length := by
    rw [mostRecent_eq, aboveFloor_eq]
    split
    · rw [length_keepLast]
    · rfl
  constructor
  · have isSplit : ∃ older, frames.filter (Permitted p ·) =
        older ++ mostRecent p (aboveFloor p frames) := by
      rw [mostRecent_eq, aboveFloor_eq]
      split
      · exact ⟨_, (List.take_append_drop _ _).symm⟩
      · exact ⟨[], rfl⟩
    rcases isSplit with ⟨older, isSplit⟩
    refine ⟨older, _, isSplit, content_reindex _, fun dropped isDropped f isKept => ?_⟩
    have inOrder := ordered.filter fun f => decide (Permitted p f)
    rw [isSplit, List.pairwise_append] at inOrder
    exact inOrder.2.2 dropped isDropped f isKept
  · rw [trim, length_reindex, isCount]
  · rw [trim, indices_reindex, length_reindex]

/-! ## Live and replayed trails -/

/-- A live trail: each batch of frames is appended and the trail trimmed. -/
def liveTrail (p : Policy) (batches : List (List (Frame Point))) : List (Frame Point) :=
  batches.foldl (fun trail batch => trim (trail ++ batch) p) []

theorem trim_nil (p : Policy) : trim ([] : List (Frame Point)) p = [] := by
  simp [trim, aboveFloor, mostRecent_eq, keepLast, reindex]

/-- The live trail is the trimmed trail of all its frames. -/
theorem liveTrail_eq_trim (p : Policy) (batches : List (List (Frame Point))) :
    liveTrail p batches = trim batches.flatten p := by
  have early := (@trim_early Point p).foldl [] batches
  rwa [trim_nil, List.nil_append] at early

/-- Trimming keeps the newest of the frames that are permitted, a second time it changes
nothing, and it may be done before later frames come. -/
theorem retention_incremental (p : Policy) (f g : List (Frame Point)) (ordered : Ordered f) :
    Retains p f (trim f p) ∧ trim (trim f p) p = trim f p ∧
      trim (trim f p ++ g) p = trim (f ++ g) p :=
  ⟨trim_retains p ordered, (trim_early p).idempotent f, trim_early p f g⟩

/-- Five frames of a session, of which a policy keeps the last two at or above the floor. -/
def fiveFrames : List (Frame Unit) :=
  [1, 2, 3, 4, 5].map fun sequence =>
    { index := 0, sequence := sequence, eventId := "e", type := ""
      graph := { sessionId := "s1", nodes := [], edges := [] }, placement := ∅ }

theorem fiveFrames_incremental :
    Ordered fiveFrames ∧
      Retains ⟨2, 2⟩ fiveFrames (trim fiveFrames ⟨2, 2⟩) ∧
        trim (trim fiveFrames ⟨2, 2⟩) ⟨2, 2⟩ = trim fiveFrames ⟨2, 2⟩ ∧
        trim (trim fiveFrames ⟨2, 2⟩ ++ fiveFrames) ⟨2, 2⟩ =
          trim (fiveFrames ++ fiveFrames) ⟨2, 2⟩ := by
  have ordered : Ordered fiveFrames := by simp [Ordered, fiveFrames]
  exact ⟨ordered, retention_incremental ⟨2, 2⟩ fiveFrames fiveFrames ordered⟩

end Aa.Visualizer.Retention
