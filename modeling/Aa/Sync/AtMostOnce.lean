import Aa.Library.Memo
import Aa.Sync.Executions

/-!
# Concurrent distributions and fetches

The calls on a node share the receipts of its distributor: a call looks its transfer key
up, moves the payload on a miss, and stores the receipt.
-/

namespace Aa.Sync

open Aa.Library Transport

namespace Net

/-- The event touches no receipt, package or artifact of a distributor. -/
def Silent (event : Event) : Prop :=
  match event.op with
  | .cached .. | .store .. | .putPackage .. | .putArtifact .. => False
  | _ => True

end Net

abbrev IsSilent {α : Type} (task : Task α) : Prop := Coroutine.Only Net.Silent task

theorem silent_wired : Wired Net.Silent where
  dial _ _ _ := trivial
  send _ _ _ _ _ := trivial
  receive _ _ := trivial
  receivePackage _ _ _ := trivial
  artifact _ _ _ := trivial
  publish _ _ _ _ := trivial
  stall _ := trivial

namespace Net

theorem not_store_of_silent {event : Event} (silent : Silent event) (node : NodeId) (key : String)
    (receipt : Receipt) : event ≠ ⟨.store node key receipt, ()⟩ := by
  rintro rfl
  exact silent

/-- A request that shares receipts and has stored one has done all it does. -/
theorem moved_of_stored {α : Type} {node place : NodeId} {key slot : String} {move : Task α}
    {keep : α → Op} {make : α → Time → Receipt} {events later : List Event}
    {outcome : Except Raised Receipt} {receipt : Receipt} (silent : IsSilent move)
    (notStore : ∀ value place slot other, keep value ≠ .store place slot other)
    (once : Task.Once node key move keep make (events ++ later) outcome)
    (isStored : (⟨.store place slot receipt, ()⟩ : Event) ∈ events) :
    place = node ∧ slot = key ∧ ∃ value moved kept now, move.Does () moved (.ok value) () ∧
      receipt = make value now ∧ events = ⟨.cached node key, none⟩ :: moved ++
        [⟨keep value, kept⟩, ⟨.now, now⟩, ⟨.store node key receipt, ()⟩] := by
  have isThere := List.mem_append_left later isStored
  generalize isWhole : events ++ later = whole at once isThere
  cases once with
  | hit found => simp at isThere
  | @failed moving raised fails =>
      rcases List.mem_cons.mp isThere with isCached | isMoving
      · cases isCached
      · exact absurd rfl (not_store_of_silent (silent _ _ _ _ fails _ isMoving) _ _ _)
  | @moved moving value kept now moves =>
      have isSplit : events ++ later = (⟨.cached node key, none⟩ :: moving ++
          [⟨keep value, kept⟩, ⟨.now, now⟩]) ++ [⟨.store node key (make value now), ()⟩] := by
        rw [isWhole]
        simp
      have notEarlier : (⟨.store place slot receipt, ()⟩ : Event) ∉
          (⟨.cached node key, none⟩ :: moving ++ [⟨keep value, kept⟩, ⟨.now, now⟩] : List Event) := by
        intro isEarlier
        rcases List.mem_append.mp isEarlier with isMoving | isRecorded
        · rcases List.mem_cons.mp isMoving with isCached | isMoving
          · cases isCached
          · exact absurd rfl (not_store_of_silent (silent _ _ _ _ moves _ isMoving) _ _ _)
        · rcases List.mem_pair.mp isRecorded with isKeep | isNow
          · exact notStore value place slot receipt (congrArg Event.op isKeep).symm
          · cases isNow
      have isAll : events = (⟨.cached node key, none⟩ :: moving ++
          [⟨keep value, kept⟩, ⟨.now, now⟩]) ++ [⟨.store node key (make value now), ()⟩] := by
        rcases List.append_eq_append_iff.mp isSplit with ⟨rest, isPrefix, _⟩ | ⟨rest, isEvents, isLast⟩
        · rw [isPrefix] at notEarlier
          exact absurd (List.mem_append_left _ isStored) notEarlier
        · rcases List.append_eq_singleton_iff.mp isLast.symm with ⟨rfl, _⟩ | ⟨rfl, _⟩
          · rw [isEvents, List.append_nil] at isStored
            exact absurd isStored notEarlier
          · exact isEvents
      have isLast : (⟨.store place slot receipt, ()⟩ : Event) =
          ⟨.store node key (make value now), ()⟩ := by
        rw [isAll] at isStored
        rcases List.mem_append.mp isStored with isEarlier | isLast
        · exact absurd isEarlier notEarlier
        · exact List.mem_singleton.mp isLast
      cases isLast
      exact ⟨rfl, rfl, value, moving, kept, now, moves, rfl, by simp [isAll]⟩

end Net

/-! ## The lookups, moves and stores of a call -/

namespace Net

/-- A change that keeps a part of what a distributor holds keeps it on every node. -/
theorem part_onDistributor {Part : Type} (part : Distributor → Part) {net : Net} {node : NodeId}
    {change : Distributor → Distributor}
    (keeps : ∀ distributor, part (change distributor) = part distributor) (other : NodeId) :
    part ((net.onDistributor node change).distributors other) = part (net.distributors other) := by
  by_cases isNode : other = node
  · subst isNode
    simp [onDistributor, keeps]
  · simp [onDistributor, isNode]

/-- The operation changes what a distributor holds. -/
def Op.Changes : Op → Prop
  | .store .. | .putPackage .. | .putArtifact .. => True
  | _ => False

theorem distributors_of_respond {thread : ℕ} {choice : Choice} {net after : Net} {op : Op}
    {answer : Answer op} (answers : respond thread choice net op = some (answer, after))
    (noChange : ¬ op.Changes) : after.distributors = net.distributors := by
  cases op with
  | store | putPackage | putArtifact => exact absurd trivial noChange
  | receive own =>
      simp only [respond] at answers
      split at answers
      · cases answers
        rfl
      · rcases Option.map_eq_some_iff.mp answers with ⟨_, _, isAfter⟩
        cases isAfter
        rfl
  | stall => cases answers
  | _ =>
      cases answers
      rfl

/-- Only a store changes the receipts of a node. -/
theorem receipts_of_respond {thread : ℕ} {choice : Choice} {net after : Net} {op : Op}
    {answer : Answer op} (answers : respond thread choice net op = some (answer, after))
    (notStore : ∀ node key receipt, op ≠ .store node key receipt) (node : NodeId) :
    (after.distributors node).receipts = (net.distributors node).receipts := by
  cases op with
  | store own key receipt => exact absurd rfl (notStore own key receipt)
  | putPackage own package =>
      cases answers
      refine part_onDistributor Distributor.receipts ?_ node
      intro distributor
      rfl
  | putArtifact own id data =>
      cases answers
      refine part_onDistributor Distributor.receipts ?_ node
      intro distributor
      rfl
  | _ => rw [distributors_of_respond answers id]

/-- Only a kept artifact changes the artifacts of a node. -/
theorem artifacts_of_respond {thread : ℕ} {choice : Choice} {net after : Net} {op : Op}
    {answer : Answer op} (answers : respond thread choice net op = some (answer, after))
    (notPut : ∀ node id data, op ≠ .putArtifact node id data) (node : NodeId) :
    (after.distributors node).artifacts = (net.distributors node).artifacts := by
  cases op with
  | putArtifact own id data => exact absurd rfl (notPut own id data)
  | putPackage own package =>
      cases answers
      refine part_onDistributor Distributor.artifacts ?_ node
      intro distributor
      rfl
  | store own key receipt =>
      cases answers
      refine part_onDistributor Distributor.artifacts ?_ node
      intro distributor
      rfl
  | _ => rw [distributors_of_respond answers id]

end Net

variable [ContentHash]

namespace Call

/-- The receipts a call shares with the others of its node. -/
def key : Call → NodeId × String
  | .distribute node package remote => (node, Distributor.distributeKey package.id remote)
  | .fetchArtifact _ node id remote => (node, Distributor.artifactKey id remote)
  | .serve _ node _ | .publish node _ _ | .send node _ _ | .failNext node _ => (node, "")

/-- What an event means to the receipts of its node; a payload was moved when it is kept, and
is told by its hash. -/
def reads (call : Call) : Net.Event → Option (Memo (NodeId × String) Receipt String)
  | ⟨.cached node key, some receipt⟩ => some (.hit (node, key) receipt)
  | ⟨.cached node key, none⟩ => some (.miss (node, key))
  | ⟨.putPackage _ package, _⟩ => some (.ran call.key package.hash)
  | ⟨.putArtifact _ _ data, _⟩ => some (.ran call.key (hash data))
  | ⟨.store node key receipt, _⟩ => some (.stored (node, key) receipt)
  | _ => none

theorem reads_of_silent (call : Call) {event : Net.Event} (silent : Net.Silent event) :
    call.reads event = none := by
  rcases event with ⟨op, answer⟩
  cases op
  all_goals first | rfl | exact silent.elim

/-- What is read as stored was stored. -/
theorem store_of_reads (call : Call) {event : Net.Event} {node : NodeId} {key : String}
    {receipt : Receipt} (reads : call.reads event = some (.stored (node, key) receipt)) :
    event = ⟨.store node key receipt, ()⟩ := by
  rcases event with ⟨op, answer⟩
  cases op with
  | store own slot found =>
      cases reads
      rfl
  | cached own slot => cases answer <;> cases reads
  | _ => cases reads

theorem filterMap_reads_of_silent (call : Call) {events : List Net.Event}
    (silent : ∀ event ∈ events, Net.Silent event) : events.filterMap call.reads = [] :=
  List.filterMap_eq_nil_iff.mpr fun event isThere => call.reads_of_silent (silent event isThere)

end Call

open Memo (Course)

/-- A request that shares receipts takes one of the courses of a memoized request. -/
theorem course_of_once {α : Type} {call : Call} {node : NodeId} {key : String} {move : Task α}
    {keep : α → Net.Op} {receipt : α → Time → Receipt} {events : List Net.Event}
    {outcome : Except Raised Receipt} (silent : IsSilent move)
    (keeps : ∀ events value kept now, move.Does () events (.ok value) () →
      call.reads ⟨keep value, kept⟩ = some (.ran (node, key) (receipt value now).hash))
    (once : Task.Once node key move keep receipt events outcome) :
    Course Receipt.hash (events.filterMap call.reads) := by
  cases once with
  | hit found => exact .answered (node, key) found
  | failed fails =>
      have isEmpty := call.filterMap_reads_of_silent (silent _ _ _ _ fails)
      simp only [List.filterMap_cons, Call.reads, isEmpty]
      exact .failed (node, key)
  | moved kept now moves =>
      have isEmpty := call.filterMap_reads_of_silent (silent _ _ _ _ moves)
      have isRan := keeps _ _ kept now moves
      have isNow : call.reads ⟨.now, now⟩ = none := rfl
      simp only [List.cons_append, List.filterMap_cons, List.filterMap_append, isEmpty, isRan,
        isNow, List.filterMap_nil]
      exact .executed (node, key) _

theorem hash_of_sendPackage {node : NodeId} {package : WorkPackage} {remote : NodeId}
    {events : List Net.Event} {manifest : Manifest}
    (does : (Distributor.sendPackage node package remote).Does () events (.ok manifest) ()) :
    manifest.hash = hash package.payload := by
  rcases Task.does_bind_value.mp does with ⟨source, _, _, builds, sends, rfl⟩
  rcases Task.does_tryIt_ok.mp builds with ⟨rfl, builds⟩
  rcases Task.does_bind_value.mp sends with ⟨_, _, _, _, greets, rfl⟩
  rcases Task.does_bind_value.mp greets with ⟨_, _, _, _, serves, rfl⟩
  rcases Task.does_bind_value.mp serves with ⟨_, _, _, _, returns, rfl⟩
  rcases Coroutine.does_pure.mp returns with ⟨_, isManifest, _⟩
  cases isManifest
  unfold Transfer.newSource Transfer.build at builds
  split at builds
  · cases builds
  · cases builds
    rfl

theorem hash_of_pullArtifact {fuel : ℕ} {node : NodeId} {id : String} {remote : NodeId}
    {events : List Net.Event} {pulled : Manifest × Bytes}
    (does : (Distributor.pullArtifact fuel node id remote).Does () events (.ok pulled) ()) :
    pulled.1.hash = hash pulled.2 := by
  rcases pulled with ⟨manifest, data⟩
  rcases pullArtifact_ok does with ⟨_, _, _, _, after, _, _, _, collects, _, completes, _⟩
  rw [(Transfer.Receiver.complete_ok completes).2.1, collects.manifest]

namespace Call

/-- Only distributions and fetches touch a distributor. -/
theorem silent_or (call : Call) : IsSilent call.task ∨
    (∃ node package remote, call = .distribute node package remote) ∨
    ∃ fuel node id remote, call = .fetchArtifact fuel node id remote := by
  cases call with
  | distribute node package remote => exact .inr (.inl ⟨node, package, remote, rfl⟩)
  | fetchArtifact fuel node id remote => exact .inr (.inr ⟨fuel, node, id, remote, rfl⟩)
  | serve fuel node remote => exact .inl (.bind (silent_wired.serve fuel node remote) fun _ => .pure _)
  | publish node artifact data =>
      exact .inl (.bind (silent_wired.only_publish node artifact data) fun _ => .pure _)
  | send node remote message =>
      exact .inl (.bind (silent_wired.only_dial node remote) fun _ =>
        .bind (.perform fun _ => trivial) fun _ => .pure _)
  | failNext node count =>
      have silent : IsSilent (Task.call (.failNext node count)) := .perform fun _ => trivial
      exact .inl (.bind silent fun _ => .pure _)

theorem course (call : Call) {events : List Net.Event}
    {value : Except Raised (Option Receipt) × Unit} (behaves : call.program.Behaves events value) :
    Course Receipt.hash (events.filterMap call.reads) := by
  have does : call.task.Does () events value.1 value.2 := behaves
  rcases call.silent_or with
    silent | ⟨node, package, remote, rfl⟩ | ⟨fuel, node, id, remote, rfl⟩
  · rw [call.filterMap_reads_of_silent (silent _ _ _ _ does)]
    exact .unread
  · rcases Task.does_map.mp does with ⟨outcome, does, _⟩
    rw [distribute_eq] at does
    split at does
    · rcases Task.does_fail.mp does with ⟨rfl, _⟩
      exact .unread
    · refine course_of_once (silent_wired.sendPackage _ _ _) ?_ (Task.once_cases does)
      intro events manifest kept now moves
      exact congrArg some (congrArg _ (hash_of_sendPackage moves).symm)
  · rcases Task.does_map.mp does with ⟨outcome, does, _⟩
    rw [fetchArtifact_eq] at does
    split at does
    · rcases Task.does_fail.mp does with ⟨rfl, _⟩
      exact .unread
    · refine course_of_once (silent_wired.pullArtifact _ _ _ _) ?_ (Task.once_cases does)
      intro events pulled kept now moves
      exact congrArg some (congrArg _ (hash_of_pullArtifact moves).symm)

/-- The receipt a call returned, and its key. -/
def returned (call : Call) : Except Raised (Option Receipt) × Unit →
    Option ((NodeId × String) × Receipt)
  | (.ok (some receipt), _) => some (call.key, receipt)
  | _ => none

theorem answered_of_once {α : Type} {call : Call} {node : NodeId} {key : String} {move : Task α}
    {keep : α → Net.Op} {receipt : α → Time → Receipt} {events : List Net.Event}
    {found : Receipt} (once : Task.Once node key move keep receipt events (.ok found)) :
    .hit (node, key) found ∈ events.filterMap call.reads ∨
      .stored (node, key) found ∈ events.filterMap call.reads := by
  cases once with
  | hit found =>
      left
      simp [reads]
  | moved kept now moves =>
      right
      refine List.mem_filterMap.mpr ⟨⟨.store node key (receipt _ now), ()⟩, ?_, rfl⟩
      exact List.mem_append_right _ (by simp)

theorem answered (call : Call) {events : List Net.Event}
    {value : Except Raised (Option Receipt) × Unit} {key : NodeId × String} {receipt : Receipt}
    (behaves : call.program.Behaves events value) (isReturned : call.returned value = some (key, receipt)) :
    .hit key receipt ∈ events.filterMap call.reads ∨
      .stored key receipt ∈ events.filterMap call.reads := by
  have does : call.task.Does () events value.1 value.2 := behaves
  rcases value with ⟨raised | found | found, after⟩
  · cases isReturned
  · cases isReturned
  cases isReturned
  cases call with
  | distribute node package remote =>
      rcases Task.does_map.mp does with ⟨outcome, does, isOutcome⟩
      rw [distribute_eq] at does
      split at does
      · rcases Task.does_fail.mp does with ⟨_, rfl⟩
        cases isOutcome
      · cases outcome with
        | error raised => cases isOutcome
        | ok found =>
            cases isOutcome
            exact answered_of_once (Task.once_cases does)
  | fetchArtifact fuel node id remote =>
      rcases Task.does_map.mp does with ⟨outcome, does, isOutcome⟩
      rw [fetchArtifact_eq] at does
      split at does
      · rcases Task.does_fail.mp does with ⟨_, rfl⟩
        cases isOutcome
      · cases outcome with
        | error raised => cases isOutcome
        | ok found =>
            cases isOutcome
            exact answered_of_once (Task.once_cases does)
  | serve fuel node remote =>
      rcases Task.does_map.mp does with ⟨outcome, _, isOutcome⟩
      cases outcome <;> cases isOutcome
  | publish node artifact data =>
      rcases Task.does_map.mp does with ⟨outcome, _, isOutcome⟩
      cases outcome <;> cases isOutcome
  | send node remote message =>
      rcases Task.does_bind_value.mp does with ⟨_, _, _, _, sends, _⟩
      rcases Task.does_map.mp sends with ⟨outcome, _, isOutcome⟩
      cases outcome <;> cases isOutcome
  | failNext node count =>
      rcases Task.does_map.mp does with ⟨outcome, _, isOutcome⟩
      cases outcome <;> cases isOutcome

end Call

/-! ## The receipts as a cache -/

/-- The calls on a net share the receipts of its distributors. -/
def Net.receipts (calls : ℕ → Call) :
    Memoized Net.respond (fun thread => (calls thread).program) (NodeId × String) Receipt String where
  reads thread := (calls thread).reads
  lookup net key := (net.distributors key.1).receipts.lookup key.2
  essence := Receipt.hash
  environment := Net.anyAnswer
  returned thread value := (calls thread).returned value
  course thread _ _ := (calls thread).course
  answered thread _ _ _ _ := (calls thread).answered
  looks := by
    intro thread choice net op answer after key answers
    cases op with
    | cached node own =>
        cases answers
        constructor
        · intro receipt isHit
          cases isFound : (net.distributors node).receipts.lookup own with
          | none => simp [Call.reads, isFound] at isHit
          | some found =>
              simp only [Call.reads, isFound, Option.some.injEq, Memo.hit.injEq] at isHit
              rcases isHit with ⟨rfl, rfl⟩
              exact isFound
        · intro isMiss
          cases isFound : (net.distributors node).receipts.lookup own with
          | none =>
              simp only [Call.reads, isFound, Option.some.injEq, Memo.miss.injEq] at isMiss
              subst isMiss
              exact isFound
          | some found => simp [Call.reads, isFound] at isMiss
    | _ => exact ⟨fun _ isHit => (by cases isHit), fun isMiss => (by cases isMiss)⟩
  stores := by
    intro thread choice net op answer after key answers
    cases op with
    | store node own receipt =>
        cases answers
        by_cases isKey : key = (node, own)
        · subst isKey
          exact .inl ⟨receipt, rfl, by simp [Net.onDistributor]⟩
        · refine .inr ⟨?_, ?_⟩
          · intro other isStored
            simp only [Call.reads, Option.some.injEq, Memo.stored.injEq] at isStored
            exact isKey isStored.1.symm
          · by_cases isNode : key.1 = node
            · have isOther : key.2 ≠ own := fun isOwn => isKey (Prod.ext isNode isOwn)
              simp [Net.onDistributor, isNode, AList.lookup_insert_ne isOther]
            · simp [Net.onDistributor, isNode]
    | cached node own =>
        refine .inr ⟨?_, by rw [Net.receipts_of_respond answers (by simp)]⟩
        intro other isStored
        cases answer <;> cases isStored
    | _ =>
        refine .inr ⟨?_, by rw [Net.receipts_of_respond answers (by simp)]⟩
        intro other isStored
        cases isStored

/-- A receipt that is found was stored before. -/
theorem Net.stored_of_found {calls : ℕ → Call} {schedule : List (ℕ × Net.Choice)} {thread : ℕ}
    {node : NodeId} {key : String} {receipt : Receipt} {before later : List (ℕ × Net.Event)}
    (isTrace : Pool.trace respond (start {} calls) schedule =
      before ++ (thread, ⟨.cached node key, some receipt⟩) :: later) :
    ∃ executor, (executor, (⟨.store node key receipt, ()⟩ : Net.Event)) ∈ before := by
  have coherent : Guarded ((Net.receipts calls).Coherent (node, key)) []
      (Pool.trace respond (start {} calls) schedule) := Memoized.coherent_trace rfl
  rcases (guarded_iff_split.mp coherent before _ later isTrace).1 receipt rfl with
    ⟨executor, isStored⟩
  rcases Memoized.mem_memos.mp isStored with ⟨event, wasMoment, reads⟩
  rw [(calls executor).store_of_reads reads] at wasMoment
  exact ⟨executor, wasMoment⟩

end Aa.Sync
