import Mathlib.Data.Finset.Max
import Aa.Sync.Revision

/-!
# Convergence of revision sync

What `diff` emits for a path and what `apply` does there are two case analyses over
the records of both sides. They agree everywhere but on tombstones over older
tombstones: the diff emits them, and the application drops them. Hence a replica
converges to a source exactly when no tombstone of the source is newer than a
tombstone of the replica, and operations can be applied in any order exactly when no
path ends in a tombstone that another one can precede.
-/

namespace Aa.Sync.Revision

open Aa.Library

/-! ## What the diff emits -/

/-- The source record is one the diff emits for a replica that holds `localRecord`. -/
def Behind (localRecord : Option RevisionRecord) (src : RevisionRecord) : Prop :=
  ∀ held, localRecord = some held → held.revision < src.revision ∨
    held.revision = src.revision ∧ held.deleted ≠ src.deleted

def opFor (src : RevisionRecord) : Op where
  kind := if src.deleted then .delete else .put
  record := src

theorem opFor_wellFormed (src : RevisionRecord) : (opFor src).WellFormed := by
  cases isDeleted : src.deleted <;> simp [Op.WellFormed, opFor, isDeleted]

theorem diffPath_of_behind {source replica : Set} {path : String} {src : RevisionRecord}
    (isSource : source.get path = some src) (behind : Behind (replica.get path) src) :
    diffPath source replica path = some (opFor src) := by
  cases isHeld : replica.get path with
  | none => simp [diffPath, isSource, isHeld, opFor]
  | some held =>
      rcases behind held isHeld with older | ⟨same, different⟩
      · simp [diffPath, isSource, isHeld, not_le.mpr older, not_lt.mpr older.le, opFor]
      · simp [diffPath, isSource, isHeld, same, different, opFor]

theorem diffPath_of_not_behind {source replica : Set} {path : String} {src : RevisionRecord}
    (isSource : source.get path = some src) (notBehind : ¬ Behind (replica.get path) src) :
    diffPath source replica path = none := by
  simp only [Behind, not_forall, not_or, not_lt, not_and, not_not] at notBehind
  rcases notBehind with ⟨held, isHeld, notOlder, sameDeleted⟩
  rcases notOlder.lt_or_eq with newer | same
  · simp [diffPath, isSource, isHeld, newer]
  · simp [diffPath, isSource, isHeld, same, sameDeleted same.symm]

theorem diffPath_of_absent {source replica : Set} {path : String}
    (isAbsent : source.get path = none) : diffPath source replica path = none := by
  simp [diffPath, isAbsent]

theorem path_of_diffPath {source replica : Set} {path : String} {op : Op}
    (emitted : diffPath source replica path = some op) :
    ∃ src, source.get path = some src ∧ op = opFor src ∧ Behind (replica.get path) src := by
  cases isSource : source.get path with
  | none =>
      rw [diffPath_of_absent isSource] at emitted
      cases emitted
  | some src =>
      by_cases behind : Behind (replica.get path) src
      · rw [diffPath_of_behind isSource behind] at emitted
        cases emitted
        exact ⟨src, rfl, rfl, behind⟩
      · rw [diffPath_of_not_behind isSource behind] at emitted
        cases emitted

theorem mem_keys_of_get {set : Set} {path : String} {record : RevisionRecord}
    (held : set.get path = some record) : path ∈ Go.sortStrings set.records.keys := by
  rw [Go.sortStrings, List.mem_insertionSort]
  have isSome : (set.records.lookup path).isSome = true := by
    rw [Set.get] at held
    simp [held]
  exact AList.mem_keys.mp (AList.lookup_isSome.mp isSome)

theorem nodup_sortedKeys (set : Set) : (Go.sortStrings set.records.keys).Nodup :=
  (List.perm_insertionSort _ _).nodup_iff.mpr set.records.keys_nodup

theorem mem_diff {source replica : Set} {op : Op} :
    op ∈ diff (some source) replica ↔ ∃ path, diffPath source replica path = some op := by
  simp only [diff, List.mem_filterMap]
  constructor
  · rintro ⟨path, _, emitted⟩
    exact ⟨path, emitted⟩
  · rintro ⟨path, emitted⟩
    rcases path_of_diffPath emitted with ⟨src, isSource, _⟩
    exact ⟨path, mem_keys_of_get isSource, emitted⟩

theorem diff_wellFormed (source replica : Set) :
    ∀ op ∈ diff (some source) replica, op.WellFormed := by
  intro op isThere
  rcases mem_diff.mp isThere with ⟨path, emitted⟩
  rcases path_of_diffPath emitted with ⟨src, _, rfl, _⟩
  exact opFor_wellFormed src

theorem diff_pathed (source replica : Set) :
    ∀ op ∈ diff (some source) replica, op.record.path ≠ "" := by
  intro op isThere
  rcases mem_diff.mp isThere with ⟨path, emitted⟩
  rcases path_of_diffPath emitted with ⟨src, isSource, rfl, _⟩
  have isPath : (opFor src).record.path = path := Set.path_of_get isSource
  rw [isPath]
  exact Set.path_ne_of_get isSource

/-- The diff offers each path at most its one operation. -/
theorem offered_diff (source replica : Set) (path : String) :
    offered (diff (some source) replica) path =
      (diffPath source replica path).toList.map (·.record) := by
  have overPaths (paths : List String) (nodup : paths.Nodup) :
      offered (paths.filterMap (diffPath source replica)) path =
        if path ∈ paths then (diffPath source replica path).toList.map (·.record) else [] := by
    induction paths with
    | nil => rfl
    | cons first rest ih =>
        rcases List.nodup_cons.mp nodup with ⟨notAgain, nodupRest⟩
        have restOffered := ih nodupRest
        cases emitted : diffPath source replica first with
        | none =>
            rw [List.filterMap_cons_none emitted, restOffered]
            by_cases same : path = first
            · simp [same, emitted, notAgain]
            · simp [same]
        | some op =>
            rcases path_of_diffPath emitted with ⟨src, isSource, rfl, _⟩
            have isPath : (opFor src).record.path = first := Set.path_of_get isSource
            rw [List.filterMap_cons_some emitted]
            by_cases same : path = first
            · subst same
              have isRest : offered (rest.filterMap (diffPath source replica)) path = [] := by
                rw [restOffered, if_neg notAgain]
              simp only [offered] at isRest
              simp [offered, isPath, emitted, isRest]
            · have isOther : ¬ first = path := Ne.symm same
              simp only [offered] at restOffered
              simp [offered, isPath, isOther, restOffered, same]
  rw [diff, overPaths _ (nodup_sortedKeys source)]
  split
  · rfl
  · rename_i notThere
    cases emitted : diffPath source replica path with
    | none => rfl
    | some op =>
        rcases path_of_diffPath emitted with ⟨src, isSource, _⟩
        exact absurd (mem_keys_of_get isSource) notThere

/-! ## Diff and apply -/

/-- Operations on distinct paths, none older than what the replica holds, are not refused. -/
theorem applyFrom_refuses_nothing {replica : Set} {result : Result} {ops : List Op}
    (wellFormed : ∀ op ∈ ops, op.WellFormed) (pathed : ∀ op ∈ ops, op.record.path ≠ "")
    (distinct : ops.Pairwise fun left right => left.record.path ≠ right.record.path)
    (notOlder : ∀ op ∈ ops, ∀ held, replica.get op.record.path = some held →
      held.revision ≤ op.record.revision) :
    (applyFrom replica result ops).2.1.refused = result.refused := by
  induction ops generalizing replica result with
  | nil => rfl
  | cons op rest ih =>
      rcases List.pairwise_cons.mp distinct with ⟨differs, distinctRest⟩
      have notOlderRest : ∀ other ∈ rest, ∀ held,
          (effect replica op).get other.record.path = some held →
            held.revision ≤ other.record.revision := by
        intro other otherMem held isHeld
        rw [get_effect (wellFormed op (by simp)) (pathed op (by simp)),
          if_neg (differs other otherMem).symm] at isHeld
        exact notOlder other (by simp [otherMem]) held isHeld
      have goesOn (counted : Result) (same : counted.refused = result.refused) :
          (applyFrom (effect replica op) counted rest).2.1.refused = result.refused := by
        rw [← same]
        exact ih (fun other otherMem => wellFormed other (by simp [otherMem]))
          (fun other otherMem => pathed other (by simp [otherMem])) distinctRest notOlderRest
      rcases applyOp_spec replica (wellFormed op (by simp)) (pathed op (by simp)) with
        ⟨isApplied, _⟩ | ⟨isKept | ⟨_, isRefused, held, isHeld, newer⟩, _⟩
      · simp only [applyFrom, isApplied]
        simp only [effect, isApplied] at goesOn
        exact goesOn _ rfl
      · simp only [applyFrom, isKept]
        simp only [effect, isKept] at goesOn
        exact goesOn _ rfl
      · exact absurd newer (not_lt.mpr (notOlder op (by simp) held isHeld))

theorem diff_distinct (source replica : Set) :
    (diff (some source) replica).Pairwise fun left right => left.record.path ≠ right.record.path := by
  simp only [diff]
  refine List.Pairwise.filterMap _ ?_ (nodup_sortedKeys source)
  intro left right different leftOp isLeft rightOp isRight
  rcases path_of_diffPath isLeft with ⟨leftSrc, leftSource, rfl, _⟩
  rcases path_of_diffPath isRight with ⟨rightSrc, rightSource, rfl, _⟩
  have leftPath : (opFor leftSrc).record.path = left := Set.path_of_get leftSource
  have rightPath : (opFor rightSrc).record.path = right := Set.path_of_get rightSource
  rwa [leftPath, rightPath]

/-- The replica after the operations that bring it up to the source. -/
def synced (source replica : Set) : Set :=
  (apply replica (diff (some source) replica)).1

theorem get_synced (source replica : Set) (path : String) :
    (synced source replica).get path =
      pathRegister.offerAll (replica.get path)
        ((diffPath source replica path).toList.map (·.record)) := by
  have wellFormed := diff_wellFormed source replica
  have pathed := diff_pathed source replica
  rcases applyFrom_eq replica {} wellFormed pathed with ⟨counted, isApplied⟩
  rw [synced, apply, isApplied, get_foldl_effect wellFormed pathed, offered_diff]

theorem get_synced_of_not_behind {source replica : Set} {path : String}
    (notEmitted : diffPath source replica path = none) :
    (synced source replica).get path = replica.get path := by
  rw [get_synced, notEmitted]
  rfl

theorem get_synced_of_behind {source replica : Set} {path : String} {src : RevisionRecord}
    (isSource : source.get path = some src) (behind : Behind (replica.get path) src) :
    (synced source replica).get path = pathRegister.offer (replica.get path) src := by
  rw [get_synced, diffPath_of_behind isSource behind]
  rfl

/-- What a synced path holds: the record it had, if the source is not ahead of it or
both hold tombstones, and else the source's. -/
theorem offer_of_behind {localRecord : Option RevisionRecord} {src : RevisionRecord}
    (behind : Behind localRecord src)
    (notDropped : ∀ held, localRecord = some held →
      ¬ (src.deleted = true ∧ held.deleted = true)) :
    pathRegister.offer localRecord src = some src := by
  cases localRecord with
  | none => rfl
  | some held =>
      have replaces : pathRegister.replaces held src := by
        refine ⟨?_, ?_, notDropped held rfl⟩
        · rintro ⟨sameRevision, _, sameDeleted⟩
          rcases behind held rfl with older | ⟨_, different⟩
          · exact absurd sameRevision older.ne
          · exact different sameDeleted
        · rcases behind held rfl with older | ⟨same, _⟩
          · exact older.le
          · exact same.le
      rw [Register.offer, if_pos replaces]

/-- The source has a record of the path, and the replica none or an older one. -/
def Ahead (source replica : Set) (path : String) (src : RevisionRecord) : Prop :=
  source.get path = some src ∧
    ∀ held, replica.get path = some held → held.revision < src.revision

/-- Syncing brings the replica up to the source, and does nothing else. -/
structure Converges (source replica : Set) : Prop where
  refusesNothing : (apply replica (diff (some source) replica)).2.1.refused = [] ∧
    (apply replica (diff (some source) replica)).2.2 = none
  takes : ∀ path src, Ahead source replica path src →
    ∃ record, (synced source replica).get path = some record ∧
      record.revision = src.revision ∧ record.hash = src.hash ∧ record.deleted = src.deleted
  settles : diff (some source) (synced source replica) = []
  keeps : ∀ path, (source.get path = none ∨ ∃ src held, source.get path = some src ∧
      replica.get path = some held ∧ src.revision < held.revision) →
    (synced source replica).get path = replica.get path
  raises : ∀ path held, replica.get path = some held →
    ∃ record, (synced source replica).get path = some record ∧ held.revision ≤ record.revision

theorem refusesNothing (source replica : Set) :
    (apply replica (diff (some source) replica)).2.1.refused = [] ∧
      (apply replica (diff (some source) replica)).2.2 = none := by
  constructor
  · refine applyFrom_refuses_nothing (diff_wellFormed source replica) (diff_pathed source replica)
      (diff_distinct source replica) ?_
    intro op isThere held isHeld
    rcases mem_diff.mp isThere with ⟨path, emitted⟩
    rcases path_of_diffPath emitted with ⟨src, isSource, rfl, behind⟩
    have isPath : (opFor src).record.path = path := Set.path_of_get isSource
    rw [isPath] at isHeld
    rcases behind held isHeld with older | ⟨same, _⟩
    · exact older.le
    · exact same.le
  · rcases applyFrom_eq replica {} (diff_wellFormed source replica) (diff_pathed source replica) with
      ⟨counted, isApplied⟩
    rw [apply, isApplied]

/-- Syncing only ever offers a path the source's record. -/
theorem get_synced_cases (source replica : Set) (path : String) :
    (synced source replica).get path = replica.get path ∨
      ∃ src, source.get path = some src ∧ Behind (replica.get path) src ∧
        (synced source replica).get path = some src := by
  cases emitted : diffPath source replica path with
  | none => exact .inl (get_synced_of_not_behind emitted)
  | some op =>
      rcases path_of_diffPath emitted with ⟨src, isSource, _, behind⟩
      have offers : pathRegister.offer (replica.get path) src = some src ∨
          pathRegister.offer (replica.get path) src = replica.get path :=
        Register.offer_eq_or _ _
      rcases offers with taken | unchanged
      · exact .inr ⟨src, isSource, behind, (get_synced_of_behind isSource behind).trans taken⟩
      · exact .inl ((get_synced_of_behind isSource behind).trans unchanged)

/-- A replica converges to a source exactly when no tombstone of the source is newer
than a tombstone of the replica. -/
theorem revisions_converge_iff {source replica : Set} :
    Converges source replica ↔
      ∀ path src held, source.get path = some src → replica.get path = some held →
        src.deleted = true → held.deleted = true → src.revision ≤ held.revision := by
  constructor
  · intro converges path src held isSource isHeld srcDeleted heldDeleted
    by_contra newer
    rw [not_le] at newer
    have ahead : Ahead source replica path src := by
      refine ⟨isSource, fun current isCurrent => ?_⟩
      rw [isHeld] at isCurrent
      cases isCurrent
      exact newer
    rcases converges.takes path src ahead with ⟨record, isRecord, sameRevision, _⟩
    have behind : Behind (replica.get path) src := fun current isCurrent =>
      .inl (ahead.2 current isCurrent)
    rw [get_synced_of_behind isSource behind, isHeld, Register.offer, if_neg] at isRecord
    · cases isRecord
      exact absurd sameRevision newer.ne
    · rintro ⟨_, _, notBoth⟩
      exact notBoth ⟨srcDeleted, heldDeleted⟩
  · intro noNewer
    have takesAll {path : String} {src : RevisionRecord} (isSource : source.get path = some src)
        (behind : Behind (replica.get path) src) :
        (synced source replica).get path = some src := by
      rw [get_synced_of_behind isSource behind]
      refine offer_of_behind behind fun held isHeld => ?_
      rintro ⟨srcDeleted, heldDeleted⟩
      rcases behind held isHeld with older | ⟨_, different⟩
      · exact absurd (noNewer path src held isSource isHeld srcDeleted heldDeleted)
          (not_le.mpr older)
      · exact different (heldDeleted.trans srcDeleted.symm)
    refine ⟨refusesNothing source replica, ?_, ?_, ?_, ?_⟩
    · rintro path src ⟨isSource, ahead⟩
      exact ⟨src, takesAll isSource fun held isHeld => .inl (ahead held isHeld), rfl, rfl, rfl⟩
    · refine List.eq_nil_iff_forall_not_mem.mpr fun op isThere => ?_
      rcases mem_diff.mp isThere with ⟨path, emitted⟩
      rcases path_of_diffPath emitted with ⟨src, isSource, _, stillBehind⟩
      have notBehind : ¬ Behind (some src) src := by
        intro behind
        rcases behind src rfl with older | ⟨_, different⟩
        · exact lt_irrefl _ older
        · exact different rfl
      by_cases behind : Behind (replica.get path) src
      · rw [takesAll isSource behind] at stillBehind
        exact notBehind stillBehind
      · rw [get_synced_of_not_behind (diffPath_of_not_behind isSource behind)] at stillBehind
        exact behind stillBehind
    · intro path kept
      refine get_synced_of_not_behind ?_
      rcases kept with isAbsent | ⟨src, held, isSource, isHeld, newer⟩
      · exact diffPath_of_absent isAbsent
      · refine diffPath_of_not_behind isSource fun behind => ?_
        rcases behind held isHeld with older | ⟨same, _⟩
        · exact absurd older (not_lt.mpr newer.le)
        · exact newer.ne same.symm
    · intro path held isHeld
      rcases get_synced_cases source replica path with unchanged | ⟨src, _, behind, isTaken⟩
      · exact ⟨held, unchanged.trans isHeld, le_rfl⟩
      · refine ⟨src, isTaken, ?_⟩
        rcases behind held isHeld with older | ⟨same, _⟩
        · exact older.le
        · exact same.le

def tombstone (revision : ℕ) : RevisionRecord where
  id := "a"
  path := "a"
  revision := revision
  deleted := true

theorem tombstone_pathed (revision : ℕ) : (tombstone revision).path ≠ "" :=
  (by decide : "a" ≠ "")

def deletedAt (revision : ℕ) : Set :=
  Set.empty.insert (tombstone revision) (tombstone_pathed revision)

/-- A tombstone of revision 2 never reaches a replica that holds one of revision 1. -/
theorem newerTombstone_dropped : ¬ Converges (deletedAt 2) (deletedAt 1) := by
  intro converges
  have ahead : Ahead (deletedAt 2) (deletedAt 1) "a" (tombstone 2) := by
    refine ⟨rfl, fun held isHeld => ?_⟩
    cases isHeld
    decide
  rcases converges.takes "a" (tombstone 2) ahead with ⟨record, isRecord, sameRevision, _⟩
  have dropped : (synced (deletedAt 2) (deletedAt 1)).get "a" = some (tombstone 1) := by
    decide
  rw [dropped] at isRecord
  cases isRecord
  cases sameRevision

/-! ## Operations in any order -/

/-- The records that compete for a path. -/
def candidates (replica : Set) (ops : List Op) (path : String) : List RevisionRecord :=
  (replica.get path).toList ++ offered ops path

/-- The record with the highest revision, or nothing if there is none. -/
def IsHighest (records : List RevisionRecord) : Option RevisionRecord → Prop
  | none => records = []
  | some top => top ∈ records ∧ ∀ other ∈ records, other.revision ≤ top.revision

/-- Every order and every split into batches leaves the same replica, with the highest
revision on each path; so no path deleted at a revision is live at a lower one. -/
structure OrderFree (replica : Set) (ops : List Op) : Prop where
  highest : ∀ batches : List (List Op), batches.flatten.Perm ops → ∀ path,
    IsHighest (candidates replica ops path) ((applyBatches replica batches).get path)
  same : ∀ first second : List (List Op), first.flatten.Perm ops → second.flatten.Perm ops →
    ∀ path, (applyBatches replica first).get path = (applyBatches replica second).get path
  noResurrection : ∀ batches : List (List Op), batches.flatten.Perm ops → ∀ path,
    ∀ dead ∈ candidates replica ops path, dead.deleted = true → ∀ record,
      (applyBatches replica batches).get path = some record → record.deleted = false →
        dead.revision < record.revision

/-- Well-formed operations whose revisions differ from each other's and from those the
replica holds, path by path. -/
structure Fresh (replica : Set) (ops : List Op) : Prop where
  wellFormed : ∀ op ∈ ops, op.WellFormed
  distinct : ops.Pairwise fun left right =>
    left.record.path = right.record.path → left.record.revision ≠ right.record.revision
  unheld : ∀ op ∈ ops, ∀ held, replica.get op.record.path = some held →
    held.revision ≠ op.record.revision

theorem mem_offered {ops : List Op} {path : String} {record : RevisionRecord} :
    record ∈ offered ops path ↔ record.path = path ∧ ∃ op ∈ ops, op.record = record := by
  simp only [offered, List.mem_filter, List.mem_map, decide_eq_true_eq]
  exact and_comm

theorem offered_perm {first second : List Op} (perm : first.Perm second) (path : String) :
    (offered first path).Perm (offered second path) :=
  (perm.map _).filter _

theorem get_applyBatches {replica : Set} {batches : List (List Op)}
    (wellFormed : ∀ op ∈ batches.flatten, op.WellFormed)
    (pathed : ∀ op ∈ batches.flatten, op.record.path ≠ "") (path : String) :
    (applyBatches replica batches).get path =
      pathRegister.offerAll (replica.get path) (offered batches.flatten path) := by
  induction batches generalizing replica with
  | nil => rfl
  | cons batch rest ih =>
      simp only [List.flatten_cons, List.mem_append] at wellFormed pathed
      have batchWellFormed : ∀ op ∈ batch, op.WellFormed := fun op isThere =>
        wellFormed op (.inl isThere)
      have batchPathed : ∀ op ∈ batch, op.record.path ≠ "" := fun op isThere =>
        pathed op (.inl isThere)
      rcases applyFrom_eq replica {} batchWellFormed batchPathed with
        ⟨counted, isApplied⟩
      have split : offered (batch :: rest).flatten path =
          offered batch path ++ offered rest.flatten path := by
        simp [offered]
      rw [applyBatches, ih (fun op isThere => wellFormed op (.inr isThere))
        (fun op isThere => pathed op (.inr isThere)), apply, isApplied, split,
        Register.offerAll_append, get_foldl_effect batchWellFormed batchPathed]

namespace Fresh

variable {replica : Set} {ops : List Op}

theorem symmetric : Std.Symm fun left right : Op =>
    left.record.path = right.record.path → left.record.revision ≠ right.record.revision :=
  ⟨fun _ _ differ same => (differ same.symm).symm⟩

theorem eq_of_revision_eq (fresh : Fresh replica ops) {path : String}
    {left right : RevisionRecord} (leftMem : left ∈ candidates replica ops path)
    (rightMem : right ∈ candidates replica ops path) (same : left.revision = right.revision) :
    left = right := by
  have heldOffered {held other : RevisionRecord} (isHeld : replica.get path = some held)
      (isOffered : other ∈ offered ops path) : held.revision ≠ other.revision := by
    rcases mem_offered.mp isOffered with ⟨rfl, op, isThere, rfl⟩
    exact fresh.unheld op isThere held isHeld
  simp only [candidates, List.mem_append, Option.mem_toList] at leftMem rightMem
  rcases leftMem with leftHeld | leftOffered
  · rcases rightMem with rightHeld | rightOffered
    · exact Option.some.inj (leftHeld.symm.trans rightHeld)
    · exact absurd same (heldOffered leftHeld rightOffered)
  · rcases rightMem with rightHeld | rightOffered
    · exact absurd same.symm (heldOffered rightHeld leftOffered)
    · rcases mem_offered.mp leftOffered with ⟨leftPath, leftOp, leftThere, rfl⟩
      rcases mem_offered.mp rightOffered with ⟨rightPath, rightOp, rightThere, rfl⟩
      by_contra different
      have := symmetric
      exact fresh.distinct.forall leftThere rightThere (fun sameOp => different (by rw [sameOp]))
        (leftPath.trans rightPath.symm) same

/-- An operation at the front of an order is not offered again. -/
theorem not_mem_offered_erase (fresh : Fresh replica ops) {op : Op} {rest : List Op}
    (order : (op :: rest).Perm ops) : op.record ∉ offered rest op.record.path := by
  intro again
  rcases mem_offered.mp again with ⟨_, other, otherThere, sameRecord⟩
  have distinct := (order.pairwise_iff (fun differ same => (differ same.symm).symm)).mpr
    fresh.distinct
  have differs := (List.pairwise_cons.mp distinct).1 other otherThere
  rw [sameRecord] at differs
  exact differs rfl rfl

theorem eq_of_highest (fresh : Fresh replica ops) {path : String} {top : RevisionRecord}
    (topMem : top ∈ candidates replica ops path)
    (highest : ∀ other ∈ candidates replica ops path, other.revision ≤ top.revision)
    {final : Option RevisionRecord} (isHighest : IsHighest (candidates replica ops path) final) :
    final = some top := by
  cases final with
  | none =>
      simp only [IsHighest] at isHighest
      rw [isHighest] at topMem
      cases topMem
  | some record =>
      rcases isHighest with ⟨recordMem, above⟩
      rw [fresh.eq_of_revision_eq recordMem topMem
        (le_antisymm (highest record recordMem) (above top topMem))]

/-- An order in which the tombstone `top` comes when the path holds another one loses it. -/
theorem not_orderFree_of_dropped (fresh : Fresh replica ops)
    (pathed : ∀ op ∈ ops, op.record.path ≠ "") {topOp : Op} {before rest : List Op}
    (order : (before ++ topOp :: rest).Perm ops) {held : RevisionRecord}
    (isHeld : pathRegister.offerAll (replica.get topOp.record.path)
      (offered before topOp.record.path) = some held)
    (different : held ≠ topOp.record) (topDeleted : topOp.record.deleted = true)
    (heldDeleted : held.deleted = true)
    (highest : ∀ other ∈ candidates replica ops topOp.record.path,
      other.revision ≤ topOp.record.revision) : ¬ OrderFree replica ops := by
  intro free
  have isFlat : [before ++ topOp :: rest].flatten = before ++ topOp :: rest := by simp
  have topMem : topOp.record ∈ candidates replica ops topOp.record.path := by
    refine List.mem_append_right _ (mem_offered.mpr ⟨rfl, topOp, ?_, rfl⟩)
    exact order.mem_iff.mp (by simp)
  have isTop := fresh.eq_of_highest topMem highest
    (free.highest [before ++ topOp :: rest] (by rwa [isFlat]) topOp.record.path)
  have notReplaced : ¬ pathRegister.replaces held topOp.record := by
    rintro ⟨_, _, notBoth⟩
    exact notBoth ⟨topDeleted, heldDeleted⟩
  have splits : offered (before ++ topOp :: rest) topOp.record.path =
      offered before topOp.record.path ++ topOp.record :: offered rest topOp.record.path := by
    simp [offered]
  have notAgain : topOp.record ∉ offered rest topOp.record.path := by
    have toFront : (topOp :: (before ++ rest)).Perm ops := List.perm_middle.symm.trans order
    have notLater := fresh.not_mem_offered_erase toFront
    intro again
    refine notLater ?_
    rw [offered, List.map_append, List.filter_append]
    exact List.mem_append_right _ again
  rw [get_applyBatches (fun op isThere => fresh.wellFormed op (order.mem_iff.mp (isFlat ▸ isThere)))
    (fun op isThere => pathed op (order.mem_iff.mp (isFlat ▸ isThere))), isFlat, splits,
    Register.offerAll_append, isHeld, Register.offerAll_cons, Register.offer,
    if_neg notReplaced] at isTop
  exact Register.offerAll_ne_of_not_mem (by simpa using different) notAgain isTop

/-- The highest record is what a path ends with in every order, if no tombstone that the
path can hold comes below a tombstone. -/
theorem offerAll_highest (fresh : Fresh replica ops) {path : String} {top : RevisionRecord}
    (topMem : top ∈ candidates replica ops path)
    (highest : ∀ other ∈ candidates replica ops path, other.revision ≤ top.revision)
    (alone : top ∈ offered ops path → top.deleted = true →
      ∀ other ∈ candidates replica ops path, other ≠ top → other.deleted = true →
        ∃ held, replica.get path = some held ∧ other.revision < held.revision)
    {order : List RevisionRecord} (perm : order.Perm (offered ops path)) :
    pathRegister.offerAll (replica.get path) order = some top := by
  have inCandidates {record : RevisionRecord} (isThere : record ∈ order) :
      record ∈ candidates replica ops path :=
    List.mem_append_right _ (perm.mem_iff.mp isThere)
  have kept : ∀ value ∈ order, ¬ pathRegister.replaces top value := by
    rintro value isThere ⟨notConverged, notOlder, _⟩
    have same := fresh.eq_of_revision_eq topMem (inCandidates isThere)
      (le_antisymm notOlder (highest value (inCandidates isThere)))
    rw [same] at notConverged
    exact notConverged ⟨rfl, rfl, rfl⟩
  by_cases isHeld : replica.get path = some top
  · rw [isHeld]
    exact Register.offerAll_of_kept kept
  · have topOffered : top ∈ offered ops path := by
      rcases List.mem_append.mp topMem with isThere | isThere
      · exact absurd (Option.mem_toList.mp isThere) isHeld
      · exact isThere
    refine Register.offerAll_of_absorbs
      (fun value => value ∈ candidates replica ops path ∧
        ∀ held, replica.get path = some held → held.revision ≤ value.revision)
      (perm.mem_iff.mpr topOffered) ?_ kept ?_ ?_ ?_
    · rintro value ⟨valueMem, notOlder⟩ different
      refine ⟨?_, highest value valueMem, ?_⟩
      · rintro ⟨sameRevision, _⟩
        exact different (fresh.eq_of_revision_eq valueMem topMem sameRevision)
      · rintro ⟨topDeleted, valueDeleted⟩
        rcases alone topOffered topDeleted value valueMem different valueDeleted with
          ⟨held, holds, older⟩
        exact absurd older (not_lt.mpr (notOlder held holds))
    · rintro current ⟨_, notOlder⟩ value isThere ⟨_, raises, _⟩
      exact ⟨inCandidates isThere, fun held holds => (notOlder held holds).trans raises⟩
    · intro isEmpty value isThere
      refine ⟨inCandidates isThere, fun held holds => ?_⟩
      rw [isEmpty] at holds
      cases holds
    · intro value holds
      refine ⟨List.mem_append_left _ (Option.mem_toList.mpr holds), fun held isHeld' => ?_⟩
      rw [holds] at isHeld'
      cases isHeld'
      exact le_rfl

end Fresh

theorem exists_highest {records : List RevisionRecord} (nonempty : records ≠ []) :
    ∃ top ∈ records, ∀ other ∈ records, other.revision ≤ top.revision := by
  have inhabited : records.toFinset.Nonempty := by
    rcases List.exists_mem_of_ne_nil records nonempty with ⟨record, isThere⟩
    exact ⟨record, List.mem_toFinset.mpr isThere⟩
  rcases records.toFinset.exists_max_image (·.revision) inhabited with ⟨top, topMem, highest⟩
  exact ⟨top, List.mem_toFinset.mp topMem, fun other otherMem =>
    highest other (List.mem_toFinset.mpr otherMem)⟩

/-- Operations can be applied in any order exactly when none is without a path and no path
ends in a tombstone of theirs while it can hold another tombstone before. -/
theorem orderFree_iff {replica : Set} {ops : List Op} (fresh : Fresh replica ops) :
    OrderFree replica ops ↔
      (∀ op ∈ ops, op.record.path ≠ "") ∧
        ∀ path, ∀ top ∈ offered ops path,
          (∀ other ∈ candidates replica ops path, other.revision ≤ top.revision) →
          top.deleted = true →
          ∀ other ∈ candidates replica ops path, other ≠ top → other.deleted = true →
            ∃ held, replica.get path = some held ∧ other.revision < held.revision := by
  constructor
  · intro free
    have pathed : ∀ op ∈ ops, op.record.path ≠ "" := by
      intro op isThere pathless
      have isHighest := free.highest [ops] (by simp) ""
      have noneHeld (set : Set) : set.get "" = none := by
        cases isHeld : set.get "" with
        | none => rfl
        | some record => exact absurd rfl (Set.path_ne_of_get isHeld)
      rw [noneHeld] at isHighest
      have isCandidate : op.record ∈ candidates replica ops "" :=
        List.mem_append_right _ (mem_offered.mpr ⟨pathless, op, isThere, rfl⟩)
      simp only [IsHighest] at isHighest
      rw [isHighest] at isCandidate
      cases isCandidate
    refine ⟨pathed, ?_⟩
    intro path top topOffered highest topDeleted other otherMem different otherDeleted
    rcases mem_offered.mp topOffered with ⟨rfl, topOp, topThere, rfl⟩
    by_contra notBuried
    simp only [not_exists, not_and, not_lt] at notBuried
    by_cases heldDead : ∃ held, replica.get topOp.record.path = some held ∧ held.deleted = true
    · -- The path holds a tombstone already: the top comes first and is dropped.
      rcases heldDead with ⟨held, isHeld, heldDeleted⟩
      have order : ([] ++ topOp :: ops.erase topOp).Perm ops := (List.perm_cons_erase topThere).symm
      refine fresh.not_orderFree_of_dropped pathed order isHeld ?_ topDeleted heldDeleted highest free
      rintro rfl
      exact fresh.unheld topOp topThere _ isHeld rfl
    · -- The other tombstone is taken first, and the top after it is dropped.
      have otherOffered : other ∈ offered ops topOp.record.path := by
        rcases List.mem_append.mp otherMem with isHeld | isOffered
        · exact absurd ⟨other, Option.mem_toList.mp isHeld, otherDeleted⟩ heldDead
        · exact isOffered
      rcases mem_offered.mp otherOffered with ⟨otherPath, otherOp, otherThere, rfl⟩
      have topLater : topOp ∈ ops.erase otherOp :=
        (List.mem_erase_of_ne fun same => different (by rw [same])).mpr topThere
      have order : ([otherOp] ++ topOp :: (ops.erase otherOp).erase topOp).Perm ops :=
        ((List.perm_cons_erase topLater).symm.cons otherOp).trans
          (List.perm_cons_erase otherThere).symm
      refine fresh.not_orderFree_of_dropped pathed order ?_ different topDeleted otherDeleted
        highest free
      have isOffered : offered [otherOp] topOp.record.path = [otherOp.record] := by
        simp [offered, otherPath]
      rw [isOffered, Register.offerAll_cons, Register.offerAll_nil]
      cases isHeld : replica.get topOp.record.path with
      | none => rfl
      | some held =>
          have replaces : pathRegister.replaces held otherOp.record := by
            refine ⟨?_, notBuried held isHeld, ?_⟩
            · rintro ⟨sameRevision, _⟩
              rw [← otherPath] at isHeld
              exact fresh.unheld otherOp otherThere held isHeld sameRevision
            · rintro ⟨_, heldDeleted⟩
              exact heldDead ⟨held, isHeld, heldDeleted⟩
          rw [Register.offer, if_pos replaces]
  · rintro ⟨pathed, alone⟩
    have isFinal {batches : List (List Op)} (perm : batches.flatten.Perm ops) (path : String) :
        (applyBatches replica batches).get path =
          pathRegister.offerAll (replica.get path) (offered batches.flatten path) :=
      get_applyBatches (fun op isThere => fresh.wellFormed op (perm.mem_iff.mp isThere))
        (fun op isThere => pathed op (perm.mem_iff.mp isThere)) path
    have highest {batches : List (List Op)} (perm : batches.flatten.Perm ops) (path : String) :
        IsHighest (candidates replica ops path) ((applyBatches replica batches).get path) := by
      rw [isFinal perm]
      by_cases isEmpty : candidates replica ops path = []
      · rcases List.append_eq_nil_iff.mp isEmpty with ⟨noneHeld, noneOffered⟩
        have noneLater : offered batches.flatten path = [] :=
          List.perm_nil.mp (noneOffered ▸ offered_perm perm path)
        rw [noneLater, Register.offerAll_nil]
        cases isHeld : replica.get path with
        | none => exact isEmpty
        | some held => simp [isHeld] at noneHeld
      · rcases exists_highest isEmpty with ⟨top, topMem, above⟩
        rw [fresh.offerAll_highest topMem above (fun topOffered => alone path top topOffered above)
          (offered_perm perm path)]
        exact ⟨topMem, above⟩
    have sameAs {batches : List (List Op)} (perm : batches.flatten.Perm ops) {path : String}
        {record : RevisionRecord} (isRecord : (applyBatches replica batches).get path = some record) :
        record ∈ candidates replica ops path ∧
          ∀ other ∈ candidates replica ops path, other.revision ≤ record.revision := by
      have isHighest := highest perm path
      rwa [isRecord] at isHighest
    refine ⟨fun batches perm path => highest perm path, ?_, ?_⟩
    · intro first second firstPerm secondPerm path
      cases isSecond : (applyBatches replica second).get path with
      | some record =>
          rcases sameAs secondPerm isSecond with ⟨recordMem, above⟩
          exact fresh.eq_of_highest recordMem above (highest firstPerm path)
      | none =>
          have isEmpty := highest secondPerm path
          rw [isSecond] at isEmpty
          cases isFirst : (applyBatches replica first).get path with
          | none => rfl
          | some record =>
              have recordMem := (sameAs firstPerm isFirst).1
              simp only [IsHighest] at isEmpty
              rw [isEmpty] at recordMem
              cases recordMem
    · intro batches perm path dead deadMem isDead record isRecord isLive
      rcases sameAs perm isRecord with ⟨recordMem, above⟩
      refine lt_of_le_of_ne (above dead deadMem) fun sameRevision => ?_
      rw [fresh.eq_of_revision_eq deadMem recordMem sameRevision, isLive] at isDead
      cases isDead

def liveRecord (revision : ℕ) : RevisionRecord where
  id := "a"
  path := "a"
  revision := revision

/-- Two tombstones and a live record between them, the older tombstone first. -/
def resurrectingOps : List Op :=
  [opFor (tombstone 1), opFor (tombstone 5), opFor (liveRecord 3)]

theorem resurrectingOps_fresh : Fresh Set.empty resurrectingOps where
  wellFormed := by decide
  distinct := by decide
  unheld _ _ held isHeld := by cases isHeld

/-- A path deleted at revision 5 is live at revision 3. -/
theorem resurrectingOps_resurrect :
    (apply Set.empty resurrectingOps).1.get "a" = some (liveRecord 3) ∧
      ¬ OrderFree Set.empty resurrectingOps := by
  have resurrected : (applyBatches Set.empty [resurrectingOps]).get "a" = some (liveRecord 3) := by
    decide
  refine ⟨resurrected, fun free => ?_⟩
  have later := free.noResurrection [resurrectingOps] (by decide) "a" (tombstone 5) (by decide) rfl
    (liveRecord 3) resurrected rfl
  exact absurd later (by decide)

theorem resurrectingOps_orderFree_iff :
    OrderFree Set.empty resurrectingOps ↔
      (∀ op ∈ resurrectingOps, op.record.path ≠ "") ∧
        ∀ path, ∀ top ∈ offered resurrectingOps path,
          (∀ other ∈ candidates Set.empty resurrectingOps path,
            other.revision ≤ top.revision) →
          top.deleted = true →
          ∀ other ∈ candidates Set.empty resurrectingOps path,
            other ≠ top → other.deleted = true →
              ∃ held, Set.empty.get path = some held ∧ other.revision < held.revision :=
  orderFree_iff resurrectingOps_fresh

end Aa.Sync.Revision
