import Aa.Library.Register
import Aa.Sync.Types

/-!
# One-way revision sync

A replica is a set of paths with the latest record of each. The source is
authoritative: absent paths are never deleted implicitly, and deletions happen only
through an explicit tombstone. What applying operations does to one path is a
register, so that the two halves of the sync are compared path by path.
-/

namespace Aa.Sync.Revision

open Aa.Library

/-- One replica's view of a tree: each record is kept under its own path. -/
structure Set where
  records : GoMap String RevisionRecord
  keyed : ∀ path record, records.lookup path = some record → record.path = path ∧ path ≠ ""

namespace Set

def empty : Set where
  records := ∅
  keyed := by simp

def get (set : Set) (path : String) : Option RevisionRecord :=
  set.records.lookup path

theorem path_of_get {set : Set} {path : String} {record : RevisionRecord}
    (held : set.get path = some record) : record.path = path :=
  (set.keyed path record held).1

theorem path_ne_of_get {set : Set} {path : String} {record : RevisionRecord}
    (held : set.get path = some record) : path ≠ "" :=
  (set.keyed path record held).2

/-- The set with a record under its path. -/
def insert (set : Set) (record : RevisionRecord) (pathed : record.path ≠ "") : Set where
  records := set.records.insert record.path record
  keyed path other held := by
    by_cases same : path = record.path
    · rw [same, AList.lookup_insert, Option.some.injEq] at held
      rw [← held]
      exact ⟨same.symm, same ▸ pathed⟩
    · rw [AList.lookup_insert_ne same] at held
      exact set.keyed path other held

/-- Records a revision for a path. An older revision never overwrites a newer one. -/
def put (set : Set) (record : RevisionRecord) : Except Error Set :=
  if pathless : record.path = "" then .error (.wrap .invalid "path is required")
  else
    match set.get record.path with
    | some existing =>
        if existing.revision > record.revision then
          .error (.wrap .conflict
            ("path " ++ Go.quote record.path ++ " has revision " ++ Go.itoa existing.revision ++
              " newer than " ++ Go.itoa record.revision))
        else .ok (set.insert record pathless)
    | none => .ok (set.insert record pathless)

@[simp]
theorem get_empty (path : String) : empty.get path = none := rfl

theorem get_insert {set : Set} {record : RevisionRecord} (pathed : record.path ≠ "")
    (path : String) :
    (set.insert record pathed).get path =
      if path = record.path then some record else set.get path := by
  simp only [get, insert]
  split
  · rename_i same
    rw [same, AList.lookup_insert]
  · rename_i different
    rw [AList.lookup_insert_ne different]

end Set

/-- The operation that brings a replica up to a source record, if there is one. -/
def diffPath (source replica : Set) (path : String) : Option Op :=
  match source.get path with
  | none => none
  | some src =>
      let localRecord := replica.get path
      if localRecord.any fun held =>
          held.revision ≥ src.revision && held.deleted == src.deleted then none
      else if localRecord.any fun held => held.revision > src.revision then none
      else some { kind := if src.deleted then .delete else .put, record := src }

/-- The ordered operations that bring a replica up to a source. -/
def diff (source : Option Set) (replica : Set) : List Op :=
  match source with
  | none => []
  | some source => (Go.sortStrings source.records.keys).filterMap (diffPath source replica)

/-- An operation the deletion guard rejected. -/
structure Refusal where
  path : String
  reason : String

/-- What an application did. -/
structure Result where
  applied : ℕ := 0
  refused : List Refusal := []

/-- What one operation does. -/
inductive Outcome where
  | kept
  | refused (refusal : Refusal)
  | failed (error : Error)
  | applied (replica : Set)

def applyOp (replica : Set) (op : Op) : Outcome :=
  let localRecord := replica.get op.record.path
  if localRecord.any fun held =>
      held.revision == op.record.revision && held.hash == op.record.hash &&
        held.deleted == op.record.deleted then .kept
  else if op.kind = .delete ∧ localRecord.any fun held => held.revision > op.record.revision then
    .refused { path := op.record.path, reason := "replica revision is newer" }
  else if op.kind = .delete ∧ localRecord.any fun held => held.deleted then .kept
  else
    match replica.put op.record with
    | .error error =>
        if error.is .conflict then .refused { path := op.record.path, reason := error.message }
        else .failed error
    | .ok next => .applied next

/-- Applies the operations to the replica in order, up to the first failure. -/
def applyFrom (replica : Set) (result : Result) : List Op → Set × Result × Option Error
  | [] => (replica, result, none)
  | op :: rest =>
      match applyOp replica op with
      | .kept => applyFrom replica result rest
      | .refused refusal =>
          applyFrom replica { result with refused := result.refused ++ [refusal] } rest
      | .failed error => (replica, result, some error)
      | .applied next => applyFrom next { result with applied := result.applied + 1 } rest

def apply (replica : Set) (ops : List Op) : Set × Result × Option Error :=
  applyFrom replica {} ops

/-- The replica after batches of operations. -/
def applyBatches (replica : Set) : List (List Op) → Set
  | [] => replica
  | batch :: rest => applyBatches (apply replica batch).1 rest

/-! ## What applying does to one path -/

/-- The offered record says of its path what the held one says already. -/
def Converged (held offered : RevisionRecord) : Prop :=
  held.revision = offered.revision ∧ held.hash = offered.hash ∧ held.deleted = offered.deleted

/-- The register one path of a replica is. -/
def pathRegister : Register RevisionRecord where
  replaces held offered :=
    ¬ Converged held offered ∧ held.revision ≤ offered.revision ∧
      ¬ (offered.deleted = true ∧ held.deleted = true)
  decidable _ _ := by
    unfold Converged
    infer_instance

/-- The replica after one operation. -/
def effect (replica : Set) (op : Op) : Set :=
  match applyOp replica op with
  | .applied next => next
  | _ => replica

theorem put_of_not_newer (replica : Set) {record : RevisionRecord} (pathed : record.path ≠ "")
    (notNewer : ∀ held, replica.get record.path = some held → held.revision ≤ record.revision) :
    replica.put record = .ok (replica.insert record pathed) := by
  rw [Set.put, dif_neg pathed]
  cases held : replica.get record.path with
  | none => rfl
  | some current => simp [not_lt.mpr (notNewer current held)]

theorem put_of_newer {replica : Set} {record held : RevisionRecord}
    (isHeld : replica.get record.path = some held) (newer : record.revision < held.revision) :
    ∃ error, replica.put record = .error error ∧ error.is .conflict = true := by
  rw [Set.put, dif_neg (Set.path_ne_of_get isHeld)]
  simp only [isHeld, gt_iff_lt, newer, if_true]
  exact ⟨_, rfl, rfl⟩

/-- What a well-formed operation does: it offers its record to the register of its path. -/
theorem applyOp_spec (replica : Set) {op : Op} (wellFormed : op.WellFormed)
    (pathed : op.record.path ≠ "") :
    (applyOp replica op = .applied (replica.insert op.record pathed) ∧
        pathRegister.offer (replica.get op.record.path) op.record = some op.record) ∨
      ((applyOp replica op = .kept ∨ ∃ refusal, applyOp replica op = .refused refusal ∧
          ∃ held, replica.get op.record.path = some held ∧ op.record.revision < held.revision) ∧
        pathRegister.offer (replica.get op.record.path) op.record =
          replica.get op.record.path) := by
  cases isHeld : replica.get op.record.path with
  | none =>
      refine .inl ⟨?_, rfl⟩
      have isPut := put_of_not_newer replica pathed (by simp [isHeld])
      simp [applyOp, isHeld, isPut]
  | some held =>
      by_cases converged : Converged held op.record
      · refine .inr ⟨.inl ?_, by simp [Register.offer, pathRegister, converged]⟩
        rcases converged with ⟨sameRevision, sameHash, sameDeleted⟩
        simp [applyOp, isHeld, sameRevision, sameHash, sameDeleted]
      · have notSame : (held.revision == op.record.revision && held.hash == op.record.hash &&
            held.deleted == op.record.deleted) = false := by
          rw [Bool.eq_false_iff]
          intro isSame
          simp only [Bool.and_eq_true, beq_iff_eq] at isSame
          exact converged ⟨isSame.1.1, isSame.1.2, isSame.2⟩
        by_cases newer : op.record.revision < held.revision
        · refine .inr ⟨.inr ?_, by simp [Register.offer, pathRegister, not_le.mpr newer]⟩
          rcases put_of_newer isHeld newer with ⟨error, isPut, isConflict⟩
          by_cases deletes : op.kind = .delete
          · refine ⟨{ path := op.record.path, reason := "replica revision is newer" }, ?_, held, rfl,
              newer⟩
            simp [applyOp, isHeld, notSame, deletes, newer]
          · refine ⟨{ path := op.record.path, reason := error.message }, ?_, held, rfl, newer⟩
            simp [applyOp, isHeld, notSame, deletes, isPut, isConflict]
        · have isPut := put_of_not_newer replica pathed
            (fun current isCurrent => by
              rw [isHeld] at isCurrent
              cases isCurrent
              exact not_lt.mp newer)
          by_cases dropped : op.record.deleted = true ∧ held.deleted = true
          · refine .inr ⟨.inl ?_, by simp [Register.offer, pathRegister, dropped]⟩
            have deletes : op.kind = .delete := wellFormed.mpr dropped.1
            simp [applyOp, isHeld, deletes, newer, dropped.2]
          · have replaces : pathRegister.replaces held op.record :=
              ⟨converged, not_lt.mp newer, dropped⟩
            refine .inl ⟨?_, by rw [Register.offer, if_pos replaces]⟩
            have notDropped : ¬ (op.kind = .delete ∧ held.deleted = true) := by
              rintro ⟨deletes, heldDeleted⟩
              exact dropped ⟨wellFormed.mp deletes, heldDeleted⟩
            simp [applyOp, isHeld, notSame, newer, notDropped, isPut]

theorem get_effect {replica : Set} {op : Op} (wellFormed : op.WellFormed)
    (pathed : op.record.path ≠ "") (path : String) :
    (effect replica op).get path =
      if path = op.record.path then
        pathRegister.offer (replica.get op.record.path) op.record
      else replica.get path := by
  rcases applyOp_spec replica wellFormed pathed with ⟨isApplied, taken⟩ | ⟨notApplied, kept⟩
  · rw [effect, isApplied, Set.get_insert, taken]
  · have unchanged : effect replica op = replica := by
      rcases notApplied with isKept | ⟨_, isRefused, _⟩
      · rw [effect, isKept]
      · rw [effect, isRefused]
    rw [unchanged, kept]
    split
    · rename_i same
      rw [same]
    · rfl

/-- Applying well-formed operations to their end is applying their effects. -/
theorem applyFrom_eq (replica : Set) (result : Result) {ops : List Op}
    (wellFormed : ∀ op ∈ ops, op.WellFormed) (pathed : ∀ op ∈ ops, op.record.path ≠ "") :
    ∃ counted, applyFrom replica result ops = (ops.foldl effect replica, counted, none) := by
  induction ops generalizing replica result with
  | nil => exact ⟨result, rfl⟩
  | cons op rest ih =>
      have wellFormedRest : ∀ other ∈ rest, other.WellFormed :=
        fun other otherMem => wellFormed other (by simp [otherMem])
      have pathedRest : ∀ other ∈ rest, other.record.path ≠ "" :=
        fun other otherMem => pathed other (by simp [otherMem])
      rcases applyOp_spec replica (wellFormed op (by simp)) (pathed op (by simp)) with
        ⟨isApplied, _⟩ | ⟨isKept | ⟨_, isRefused, _⟩, _⟩
      · simp only [applyFrom, List.foldl_cons, effect, isApplied]
        exact ih _ _ wellFormedRest pathedRest
      · simp only [applyFrom, List.foldl_cons, effect, isKept]
        exact ih _ _ wellFormedRest pathedRest
      · simp only [applyFrom, List.foldl_cons, effect, isRefused]
        exact ih _ _ wellFormedRest pathedRest

/-- The records that operations offer to a path, in order. -/
def offered (ops : List Op) (path : String) : List RevisionRecord :=
  (ops.map (·.record)).filter fun record => record.path = path

theorem get_foldl_effect {replica : Set} {ops : List Op}
    (wellFormed : ∀ op ∈ ops, op.WellFormed) (pathed : ∀ op ∈ ops, op.record.path ≠ "")
    (path : String) :
    (ops.foldl effect replica).get path =
      pathRegister.offerAll (replica.get path) (offered ops path) := by
  induction ops generalizing replica with
  | nil => rfl
  | cons op rest ih =>
      rw [List.foldl_cons, ih (fun other otherMem => wellFormed other (by simp [otherMem]))
        (fun other otherMem => pathed other (by simp [otherMem])),
        get_effect (wellFormed op (by simp)) (pathed op (by simp))]
      by_cases same : op.record.path = path
      · simp [offered, same]
      · simp [offered, same, Ne.symm same]

end Aa.Sync.Revision
