import Aa.Contracts.V1
import Aa.Sync.AtMostOnce

/-!
# Transfer keys

A transfer key joins its parts with a colon, and identifiers may contain colons. Two transfers
share a key exactly when a part of the identifier of the object, up to a colon, can be moved
over to the node.
-/

namespace Aa.Sync

open Aa.Library Aa.Contracts Transport

/-- No space stands before or after the text. -/
abbrev Trimmed (text : String) : Prop := Go.trimSpace text = text

theorem isSpace_of_identifierChar {c : Char} (isChar : V1.isIdentifierChar c = true) :
    Go.isSpace c = false := by
  have isAscii : 0x2b ≤ c.val ∧ c.val ≤ 0x7a := by
    have isAlphanum : c.isAlphanum = ((decide (c.val ≥ 'A'.val ∧ c.val ≤ 'Z'.val) ||
      (decide (c.val ≥ 'a'.val) && decide (c.val ≤ 'z'.val))) ||
        (decide (c.val ≥ '0'.val) && decide (c.val ≤ '9'.val))) := rfl
    simp only [V1.isIdentifierChar, isAlphanum, Bool.or_eq_true, Bool.and_eq_true,
      decide_eq_true_eq, beq_iff_eq] at isChar
    rcases isChar with (((((isAlnum | rfl) | rfl) | rfl) | rfl) | rfl) | rfl
    · rcases isAlnum with (isUpper | isLower) | isDigit
      all_goals
        constructor <;> simp only [UInt32.le_iff_toNat_le] at * <;> simp at * <;> omega
    all_goals decide
  simp only [Go.isSpace, Bool.or_eq_false_iff, Bool.and_eq_false_iff, decide_eq_false_iff_not,
    beq_eq_false_iff_ne, ne_eq, UInt32.le_iff_toNat_le, ← UInt32.toNat_inj] at isAscii ⊢
  simp at isAscii ⊢
  omega

/-- Text of the alphabet of identifiers is trimmed. -/
theorem trimmed_of_alphabet {text : String}
    (isDrawn : text.toList.all V1.isIdentifierChar = true) : Trimmed text :=
  Go.trimSpace_of_solid fun c isThere =>
    isSpace_of_identifierChar (List.all_eq_true.mp isDrawn c isThere)

/-- A part of the right object can be moved over to its node, which leaves the left object and
makes the left node. -/
def Shifts (leftObject : String) (leftNode : NodeId) (rightObject : String) (rightNode : NodeId) :
    Prop :=
  ∃ middle, rightObject = leftObject ++ ":" ++ middle ∧ leftNode = middle ++ ":" ++ rightNode

theorem not_shifts_of_object_length {leftObject rightObject : String} {leftNode rightNode : NodeId}
    (isShort : rightObject.length ≤ leftObject.length) :
    ¬ Shifts leftObject leftNode rightObject rightNode := by
  rintro ⟨middle, rfl, _⟩
  have isColon : ":".length = 1 := rfl
  simp only [String.length_append, isColon] at isShort
  omega

theorem transferKey_eq (kind object : String) (node : NodeId) :
    transferKey kind object node =
      Go.trimSpace kind ++ ":" ++ (Go.trimSpace object ++ ":" ++ Go.trimSpace node) := rfl

theorem shifts_iff_toList {leftObject rightObject : String} {leftNode rightNode : NodeId} :
    Shifts leftObject leftNode rightObject rightNode ↔
      ∃ middle, rightObject.toList = leftObject.toList ++ ':' :: middle ∧
        leftNode.toList = middle ++ ':' :: rightNode.toList := by
  constructor
  · rintro ⟨middle, rfl, rfl⟩
    exact ⟨middle.toList, by simp, by simp⟩
  · rintro ⟨middle, isObject, isNode⟩
    refine ⟨String.ofList middle, ?_, ?_⟩
    · exact String.toList_inj.mp (by simp [isObject])
    · exact String.toList_inj.mp (by simp [isNode])

/-- Two splits at a colon of one text are the same, or one is the other with a part moved over. -/
theorem join_eq_iff {leftObject rightObject : String} {leftNode rightNode : NodeId} :
    leftObject ++ ":" ++ leftNode = rightObject ++ ":" ++ rightNode ↔
      (leftObject = rightObject ∧ leftNode = rightNode) ∨
        Shifts leftObject leftNode rightObject rightNode ∨
        Shifts rightObject rightNode leftObject leftNode := by
  have isList : leftObject ++ ":" ++ leftNode = rightObject ++ ":" ++ rightNode ↔
      leftObject.toList ++ ':' :: leftNode.toList =
        rightObject.toList ++ ':' :: rightNode.toList := by
    rw [← String.toList_inj]
    simp
  rw [isList, List.append_eq_append_iff, shifts_iff_toList, shifts_iff_toList]
  constructor
  · rintro (⟨rest, isObject, isNode⟩ | ⟨rest, isObject, isNode⟩)
    · cases rest with
      | nil =>
          left
          rw [List.append_nil] at isObject
          exact ⟨String.toList_inj.mp isObject.symm,
            String.toList_inj.mp (List.cons.inj isNode).2⟩
      | cons c middle =>
          rcases List.cons.inj isNode with ⟨isColon, isNode⟩
          exact .inr (.inl ⟨middle, isColon ▸ isObject, isNode⟩)
    · cases rest with
      | nil =>
          left
          rw [List.append_nil] at isObject
          exact ⟨String.toList_inj.mp isObject,
            String.toList_inj.mp (List.cons.inj isNode).2.symm⟩
      | cons c middle =>
          rcases List.cons.inj isNode with ⟨isColon, isNode⟩
          exact .inr (.inr ⟨middle, isColon ▸ isObject, isNode⟩)
  · rintro (⟨rfl, rfl⟩ | ⟨middle, isObject, isNode⟩ | ⟨middle, isObject, isNode⟩)
    · exact .inl ⟨[], by simp, rfl⟩
    · exact .inl ⟨':' :: middle, isObject, by simp [isNode]⟩
    · exact .inr ⟨':' :: middle, isObject, by simp [isNode]⟩

/-- Transfers of one operation share a key when they are the same, or shifted. -/
theorem transferKey_eq_iff {kind leftObject rightObject : String} {leftNode rightNode : NodeId}
    (leftObjectTrimmed : Trimmed leftObject) (leftNodeTrimmed : Trimmed leftNode)
    (rightObjectTrimmed : Trimmed rightObject) (rightNodeTrimmed : Trimmed rightNode) :
    transferKey kind leftObject leftNode = transferKey kind rightObject rightNode ↔
      (leftObject = rightObject ∧ leftNode = rightNode) ∨
        Shifts leftObject leftNode rightObject rightNode ∨
        Shifts rightObject rightNode leftObject leftNode := by
  rw [transferKey_eq, transferKey_eq, leftObjectTrimmed, leftNodeTrimmed, rightObjectTrimmed,
    rightNodeTrimmed, String.append_right_inj, join_eq_iff]

/-! ## What the calls of a run ask for -/

/-- The two operations that return a receipt. -/
inductive TransferKind where
  | distribute
  | artifact
deriving DecidableEq

namespace TransferKind

def text : TransferKind → String
  | .distribute => "distribute"
  | .artifact => "artifact"

/-- The object a receipt of the operation names. -/
def named (receipt : Receipt) : TransferKind → String
  | .distribute => receipt.workPackageId
  | .artifact => receipt.artifactId

theorem text_solid (kind : TransferKind) :
    Go.trimSpace kind.text = kind.text ∧ ':' ∉ kind.text.toList := by
  cases kind <;> decide

theorem text_injective : Function.Injective text := by
  intro left right same
  cases left <;> cases right <;> first | rfl | simp [text] at same

/-- The keys of the two operations differ. -/
theorem eq_of_transferKey {left right : TransferKind} {leftObject rightObject : String}
    {leftNode rightNode : NodeId}
    (same : transferKey left.text leftObject leftNode =
      transferKey right.text rightObject rightNode) : left = right := by
  rw [transferKey_eq, transferKey_eq, left.text_solid.1, right.text_solid.1] at same
  exact text_injective
    (Go.append_separator_inj left.text_solid.2 right.text_solid.2 same).1

end TransferKind

/-- What a call on a node asks for. -/
structure Requested where
  node : NodeId
  kind : TransferKind
  object : String
  remote : NodeId

namespace Requested

def key (request : Requested) : NodeId × String :=
  (request.node, transferKey request.kind.text request.object request.remote)

/-- The receipt names the object and the node that were asked for. -/
def NamedBy (request : Requested) (receipt : Receipt) : Prop :=
  request.kind.named receipt = request.object ∧ receipt.nodeId = request.remote

/-- The object and the node are without surrounding space. -/
def IsTrimmed (request : Requested) : Prop := Trimmed request.object ∧ Trimmed request.remote

/-- Both are requests for one operation of one node, and shifted. -/
def Collides (left right : Requested) : Prop :=
  left.node = right.node ∧ left.kind = right.kind ∧
    Shifts left.object left.remote right.object right.remote

/-- Requests that share a key ask for the same, unless they collide. -/
theorem eq_of_key {left right : Requested} (leftTrimmed : left.IsTrimmed)
    (rightTrimmed : right.IsTrimmed) (same : left.key = right.key)
    (apart : ¬ left.Collides right ∧ ¬ right.Collides left) : left = right := by
  rcases left with ⟨node, kind, object, remote⟩
  rcases right with ⟨own, rightKind, rightObject, rightRemote⟩
  rcases Prod.mk.inj same with ⟨rfl, sameKey⟩
  cases TransferKind.eq_of_transferKey sameKey
  rcases (transferKey_eq_iff leftTrimmed.1 leftTrimmed.2 rightTrimmed.1 rightTrimmed.2).mp sameKey
    with ⟨rfl, rfl⟩ | shifts | shifts
  · rfl
  · exact absurd ⟨rfl, rfl, shifts⟩ apart.1
  · exact absurd ⟨rfl, rfl, shifts⟩ apart.2

end Requested

/-- What a call that returns a receipt asks for. -/
def Call.requested : Call → Option Requested
  | .distribute node package remote => some ⟨node, .distribute, package.id, remote⟩
  | .fetchArtifact _ node id remote => some ⟨node, .artifact, id, remote⟩
  | _ => none

variable [ContentHash]

namespace Net

omit [ContentHash] in
/-- The receipt a shared request returns was found under its key, or made by itself. -/
theorem found_or_made {α : Type} {node : NodeId} {key : String} {move : Task α} {keep : α → Op}
    {make : α → Time → Receipt} {events : List Event} {receipt : Receipt}
    (once : Task.Once node key move keep make events (.ok receipt)) :
    (⟨.cached node key, some receipt⟩ : Event) ∈ events ∨ ∃ value now, receipt = make value now := by
  cases once with
  | hit found => exact .inl (by simp)
  | moved kept now moves => exact .inr ⟨_, now, rfl⟩

/-- A call that returns a receipt asked for an object; the receipt names it, or was found under
the key of the request. -/
theorem named_or_found {call : Call} {events : List Event} {receipt : Receipt}
    (behaves : call.program.Behaves events (.ok (some receipt), ())) :
    ∃ request ∈ call.requested, request.NamedBy receipt ∨
      (⟨.cached request.key.1 request.key.2, some receipt⟩ : Event) ∈ events := by
  have does : call.task.Does () events (.ok (some receipt)) () := behaves
  cases call with
  | distribute node package remote =>
      refine ⟨_, rfl, ?_⟩
      rcases Task.does_map.mp does with ⟨outcome, distributes, isOutcome⟩
      rw [distribute_eq] at distributes
      split at distributes
      · rcases Task.does_fail.mp distributes with ⟨_, rfl⟩
        cases isOutcome
      · cases outcome with
        | error raised => cases isOutcome
        | ok found =>
            cases isOutcome
            rcases found_or_made (Task.once_cases distributes) with isFound | ⟨manifest, now, rfl⟩
            · exact .inr isFound
            · exact .inl ⟨rfl, rfl⟩
  | fetchArtifact fuel node id remote =>
      refine ⟨_, rfl, ?_⟩
      rcases Task.does_map.mp does with ⟨outcome, fetches, isOutcome⟩
      rw [fetchArtifact_eq] at fetches
      split at fetches
      · rcases Task.does_fail.mp fetches with ⟨_, rfl⟩
        cases isOutcome
      · cases outcome with
        | error raised => cases isOutcome
        | ok found =>
            cases isOutcome
            rcases found_or_made (Task.once_cases fetches) with isFound | ⟨pulled, now, rfl⟩
            · exact .inr isFound
            · exact .inl ⟨rfl, rfl⟩
  | send node remote message =>
      rcases Task.does_bind_value.mp does with ⟨_, _, _, _, sends, _⟩
      rcases Task.does_map.mp sends with ⟨outcome, _, isOutcome⟩
      cases outcome <;> cases isOutcome
  | serve | publish | failNext =>
      rcases Task.does_map.mp does with ⟨outcome, _, isOutcome⟩
      cases outcome <;> cases isOutcome

/-- A receipt that a call stores, it stores under the key of its request, and the receipt names
what was asked for. -/
theorem named_of_stored {call : Call} {events later : List Event}
    {value : Except Raised (Option Receipt) × Unit} {node : NodeId} {key : String}
    {receipt : Receipt} (behaves : call.program.Behaves (events ++ later) value)
    (isStored : (⟨.store node key receipt, ()⟩ : Event) ∈ events) :
    ∃ request ∈ call.requested, request.key = (node, key) ∧ request.NamedBy receipt := by
  have does : call.task.Does () (events ++ later) value.1 value.2 := behaves
  rcases call.silent_or with
    silent | ⟨own, package, remote, rfl⟩ | ⟨fuel, own, id, remote, rfl⟩
  · have isThere := List.mem_append_left later isStored
    exact absurd rfl (not_store_of_silent (silent _ _ _ _ does _ isThere) node key receipt)
  · rcases Task.does_map.mp does with ⟨outcome, distributes, _⟩
    rw [distribute_eq] at distributes
    split at distributes
    · have isNil := (List.append_eq_nil_iff.mp (Task.does_fail.mp distributes).1).1
      rw [isNil] at isStored
      cases isStored
    · rcases moved_of_stored (silent_wired.sendPackage _ _ _) (by simp)
        (Task.once_cases distributes) isStored with ⟨rfl, rfl, _, _, _, _, _, rfl, _⟩
      exact ⟨_, rfl, rfl, rfl, rfl⟩
  · rcases Task.does_map.mp does with ⟨outcome, fetches, _⟩
    rw [fetchArtifact_eq] at fetches
    split at fetches
    · have isNil := (List.append_eq_nil_iff.mp (Task.does_fail.mp fetches).1).1
      rw [isNil] at isStored
      cases isStored
    · rcases moved_of_stored (silent_wired.pullArtifact _ _ _ _) (by simp)
        (Task.once_cases fetches) isStored with ⟨rfl, rfl, _, _, _, _, _, rfl, _⟩
      exact ⟨_, rfl, rfl, rfl, rfl⟩

/-- The requests of the calls are trimmed, and no two of one operation and node are shifted. -/
structure Apart (calls : ℕ → Call) : Prop where
  trimmed : ∀ thread, ∀ request ∈ (calls thread).requested, request.IsTrimmed
  noShift : ∀ left right, ∀ leftRequest ∈ (calls left).requested,
    ∀ rightRequest ∈ (calls right).requested, ¬ leftRequest.Collides rightRequest

/-- Every receipt that a call has returned names what the call asked for. -/
def ReceiptsNamed (calls : ℕ → Call) (pool : Net.Pool) : Prop :=
  ∀ thread receipt, Returned pool thread receipt →
    ∃ request ∈ (calls thread).requested, request.NamedBy receipt

theorem receiptsNamed_of_apart {calls : ℕ → Call} (apart : Apart calls)
    (schedule : List (ℕ × Choice)) :
    ReceiptsNamed calls (Pool.run respond (start {} calls) schedule) := by
  intro thread receipt returned
  have reaches := Pool.reaches_own respond (start {} calls) schedule thread
  rw [returned] at reaches
  rcases named_or_found reaches.behaves with ⟨request, isRequest, isNamed | isFound⟩
  · exact ⟨request, isRequest, isNamed⟩
  refine ⟨request, isRequest, ?_⟩
  rcases List.mem_iff_append.mp (Pool.mem_own.mp isFound) with ⟨before, later, isTrace⟩
  rcases stored_of_found isTrace with ⟨executor, isStored⟩
  -- whoever stored the receipt asked for the same, as its request has the same key
  have wasStored := Pool.mem_own.mpr (isTrace ▸ List.mem_append_left _ isStored)
  rcases (Pool.reaches_own respond (start {} calls) schedule executor).completes anyAnswer with
    ⟨_, _, behaves, _⟩
  rcases named_of_stored behaves wasStored with ⟨own, isOwn, isKey, isNamed⟩
  have isSame : own = request :=
    Requested.eq_of_key (apart.trimmed executor own isOwn) (apart.trimmed thread request isRequest)
      isKey ⟨apart.noShift executor thread own isOwn request isRequest,
        apart.noShift thread executor request isRequest own isOwn⟩
  exact isSame ▸ isNamed

/-- Two transfers of one operation have different keys exactly when neither is the other with a
part of its object moved over to the node; and in a run whose calls are apart, every receipt
names the object and the node that were asked for. -/
theorem transfers_identified :
    (∀ (kind leftObject rightObject : String) (leftNode rightNode : NodeId),
      Trimmed leftObject → Trimmed leftNode → Trimmed rightObject → Trimmed rightNode →
      ((transferKey kind leftObject leftNode = transferKey kind rightObject rightNode →
          leftObject = rightObject ∧ leftNode = rightNode) ↔
        ¬ Shifts leftObject leftNode rightObject rightNode ∧
          ¬ Shifts rightObject rightNode leftObject leftNode)) ∧
    (∀ (calls : ℕ → Call) (schedule : List (ℕ × Choice)), Apart calls →
      ReceiptsNamed calls (Pool.run respond (start {} calls) schedule)) := by
  refine ⟨?_, fun calls schedule apart => receiptsNamed_of_apart apart schedule⟩
  intro kind leftObject rightObject leftNode rightNode leftObjectTrimmed leftNodeTrimmed
    rightObjectTrimmed rightNodeTrimmed
  rw [transferKey_eq_iff leftObjectTrimmed leftNodeTrimmed rightObjectTrimmed rightNodeTrimmed]
  constructor
  · intro identifies
    constructor
    · intro shifts
      rcases identifies (.inr (.inl shifts)) with ⟨rfl, rfl⟩
      exact not_shifts_of_object_length (Nat.le_refl _) shifts
    · intro shifts
      rcases identifies (.inr (.inr shifts)) with ⟨rfl, rfl⟩
      exact not_shifts_of_object_length (Nat.le_refl _) shifts
  · rintro ⟨notLeft, notRight⟩ (isSame | shifts | shifts)
    · exact isSame
    · exact absurd shifts notLeft
    · exact absurd shifts notRight

/-! ## An artifact fetched twice, and two packages that collide -/

/-- Fetches of one artifact, which is published on the remote node. -/
def fetchedTwice (thread : ℕ) : Call :=
  match thread with
  | 1 => .serve 0 "p" "n"
  | 2 => .publish "p" { id := "a" } [7]
  | _ => .fetchArtifact 2 "n" "a" "p"

def fetchedTwiceTurns : List (ℕ × Choice) :=
  [2, 0, 0, 0, 1, 1, 1, 1, 0, 0, 1, 1, 1, 0, 0, 0, 0, 0, 3].map fun thread => (thread, {})

omit [ContentHash] in
theorem fetchedTwice_requested {thread : ℕ} {request : Requested}
    (isRequest : request ∈ (fetchedTwice thread).requested) :
    request = ⟨"n", .artifact, "a", "p"⟩ := by
  match thread with
  | 0 | _ + 3 =>
      cases isRequest
      rfl
  | 1 | 2 => cases isRequest

omit [ContentHash] in
theorem fetchedTwice_apart : Apart fetchedTwice where
  trimmed thread request isRequest := by
    rw [fetchedTwice_requested isRequest]
    exact ⟨by decide, by decide⟩
  noShift left right leftRequest isLeft rightRequest isRight := by
    rw [fetchedTwice_requested isLeft, fetchedTwice_requested isRight]
    rintro ⟨_, _, shifts⟩
    exact not_shifts_of_object_length (Nat.le_refl _) shifts

omit [ContentHash] in
/-- The second fetch is answered with the receipt of the first. -/
theorem fetchedTwice_identified :
    letI := textHash
    ((transferKey "artifact" "a" "p" = transferKey "artifact" "b" "p" → "a" = "b" ∧ "p" = "p") ∧
      ReceiptsNamed fetchedTwice (Pool.run respond (start {} fetchedTwice) fetchedTwiceTurns)) ∧
      ((Pool.run respond (start {} fetchedTwice) fetchedTwiceTurns).threads 3).value?.isSome := by
  let _ := textHash
  refine ⟨⟨?_, transfers_identified.2 fetchedTwice fetchedTwiceTurns fetchedTwice_apart⟩, ?_⟩
  · refine (transfers_identified.1 "artifact" "a" "b" "p" "p" ?_ ?_ ?_ ?_).mpr ⟨?_, ?_⟩
    any_goals decide
    all_goals exact not_shifts_of_object_length (by decide)
  · decide +kernel

/-- A package is distributed to one node, and another package to another. -/
def collidingCalls (thread : ℕ) : Call :=
  match thread with
  | 0 => .distribute "n" { id := "a" } "b:p"
  | 1 => .distribute "n" { id := "a:b" } "p"
  | _ => .serve 2 "b:p" "n"

def collidingTurns : List (ℕ × Choice) :=
  [0, 0, 0, 2, 2, 2, 0, 0, 2, 2, 0, 0, 0, 1].map fun thread => (thread, {})

omit [ContentHash] in
/-- The package `a:b` gets the receipt of the package `a`, and does not go to its node. -/
theorem collidingPackages_misnamed :
    letI := textHash
    (¬ ∀ (kind leftObject rightObject : String) (leftNode rightNode : NodeId),
      V1.matchesIdentifier kind = true → V1.matchesIdentifier leftObject = true →
      V1.matchesIdentifier leftNode = true → V1.matchesIdentifier rightObject = true →
      V1.matchesIdentifier rightNode = true →
      transferKey kind leftObject leftNode = transferKey kind rightObject rightNode →
        leftObject = rightObject ∧ leftNode = rightNode) ∧
      ¬ ReceiptsNamed collidingCalls
        (Pool.run respond (start {} collidingCalls) collidingTurns) := by
  let _ := textHash
  constructor
  · intro identifies
    have isSame := identifies "distribute" "a" "a:b" "b:p" "p" (by decide) (by decide)
      (by decide) (by decide) (by decide) (by decide)
    exact absurd isSame.1 (by decide)
  · intro named
    have returned : Returned (Pool.run respond (start {} collidingCalls) collidingTurns) 1
        { transferId := "distribute:a:b:p", workPackageId := "a", nodeId := "b:p"
          state := .complete, hash := hash [], bytes := 0, createdAt := "" } :=
      returned_of_value (by decide +kernel)
    rcases named 1 _ returned with ⟨request, isRequest, isNamed⟩
    cases isRequest
    exact absurd isNamed.1 (by decide)

end Net

end Aa.Sync
