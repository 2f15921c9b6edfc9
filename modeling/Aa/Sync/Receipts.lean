import Aa.Sync.AtMostOnce
import Aa.Sync.Fifo

/-!
# What the receipt of a fetch says

A fetch takes its frames from the inbox of its node and copies the size of the manifest into
its receipt. Nothing ties the frames to the node and the object it asked for, nor the size to
the bytes; the receipt says the truth in the runs in which they agree.
-/

namespace Aa.Sync

open Aa.Library Transport

variable [ContentHash]

namespace Transfer.Receiver

omit [ContentHash] in
/-- Parts of the lengths of the chunks make up bytes of their total length. -/
theorem length_flatMap_of_chunks {chunks : List Chunk} {part : ℕ → Bytes}
    (lengths : ∀ index, (isIndex : index < chunks.length) →
      ((part index).length : ℤ) = chunks[index].length) :
    (((List.range chunks.length).flatMap part).length : ℤ) = (chunks.map (·.length)).sum := by
  induction chunks using List.reverseRecOn with
  | nil => simp
  | append_singleton chunks last ih =>
      have earlier : ∀ index, (isIndex : index < chunks.length) →
          ((part index).length : ℤ) = chunks[index].length := by
        intro index isIndex
        have isLength := lengths index (by simp; omega)
        rwa [List.getElem_append_left isIndex] at isLength
      have isLast := lengths chunks.length (by simp)
      rw [List.getElem_append_right (Nat.le_refl _)] at isLast
      rw [List.length_append, List.length_singleton, List.range_succ, List.flatMap_append,
        List.length_append, List.map_append, List.sum_append, Int.natCast_add, ih earlier]
      simpa using isLast

/-- The parts that are stored are chunks of the manifest. -/
structure Verified (receiver : Receiver) : Prop where
  lengths : ∀ index part, receiver.parts.lookup index = some part →
    ∃ want, receiver.manifest.chunks[index.toNat]? = some want ∧ (part.length : ℤ) = want.length
  stored : ∀ index, receiver.isHeld index = true → ∃ part, receiver.parts.lookup index = some part

omit [ContentHash] in
theorem verified_new (manifest : Manifest) : Verified { manifest := manifest } := by
  refine ⟨fun index part isThere => ?_, fun index isHeld => ?_⟩
  · simp at isThere
  · simp [Receiver.isHeld] at isHeld

theorem verified_accept {receiver after : Receiver} {chunk : Chunk} {data : Bytes}
    (verified : Verified receiver) (accepts : receiver.accept chunk data = .ok after) :
    Verified after := by
  rcases accept_ok accepts with ⟨want, _, isWant, isLength, _, rfl⟩
  constructor
  · intro index part isThere
    by_cases isIndex : index = chunk.index
    · subst isIndex
      rw [AList.lookup_insert] at isThere
      cases isThere
      exact ⟨want, isWant, isLength⟩
    · rw [AList.lookup_insert_ne isIndex] at isThere
      exact verified.lengths index part isThere
  · intro index isHeld
    by_cases isIndex : index = chunk.index
    · subst isIndex
      exact ⟨data, AList.lookup_insert _⟩
    · rw [Receiver.isHeld, AList.lookup_insert_ne isIndex] at isHeld
      rcases verified.stored index isHeld with ⟨part, isThere⟩
      exact ⟨part, by rw [AList.lookup_insert_ne isIndex, isThere]⟩

theorem Collects.verified {receiver after : Receiver} {chunks : List (Frame × ChunkBody)}
    (collects : receiver.Collects chunks after) (verified : Verified receiver) : Verified after := by
  induction collects with
  | refl receiver => exact verified
  | chunk _ _ accepts _ ih => exact ih (verified_accept verified accepts)

/-- A complete payload has the total length of the chunks of its manifest. -/
theorem Verified.length_of_complete {receiver : Receiver} {data : Bytes}
    (verified : Verified receiver) (completes : receiver.complete = .ok data) :
    (data.length : ℤ) = (receiver.manifest.chunks.map (·.length)).sum := by
  rcases complete_ok completes with ⟨noneMissing, _, rfl⟩
  have partLength : ∀ index : ℕ, (isIndex : index < receiver.manifest.chunks.length) →
      (((receiver.parts.lookup (index : ℤ)).getD []).length : ℤ) =
        receiver.manifest.chunks[index].length := by
    intro index isIndex
    have isHeld : receiver.isHeld index = true := by
      by_contra notHeld
      have isMissing : (index : ℤ) ∈ receiver.missing := by
        refine List.mem_filter.mpr ⟨?_, by simpa using notHeld⟩
        exact List.mem_map.mpr ⟨index, List.mem_range.mpr isIndex, rfl⟩
      rw [noneMissing] at isMissing
      cases isMissing
    rcases verified.stored index isHeld with ⟨part, isThere⟩
    rcases verified.lengths index part isThere with ⟨want, isWant, isLength⟩
    rw [Int.toNat_natCast, List.getElem?_eq_getElem isIndex] at isWant
    cases isWant
    rw [isThere]
    exact isLength
  rw [indexes, List.flatMap_map]
  exact length_flatMap_of_chunks partLength

end Transfer.Receiver

namespace Net

/-! ## Truthful receipts -/

/-- The node `remote` sent the data to the node as the object `id`: it sent a hello frame for that
object, and chunk frames that make up the data of the hello's manifest. -/
def SentUnder (moments : List Moment) (node remote : NodeId) (id : String) (data : Bytes) : Prop :=
  ∃ (greeting : Frame) (hello : HelloBody) (chunks : List (Frame × ChunkBody))
      (after : Transfer.Receiver),
    (∀ frame ∈ greeting :: chunks.map Prod.fst, SentBy remote node moments frame) ∧
      decodeBody greeting.message (·.hello) = .ok hello ∧ hello.object = objectArtifact ∧
      hello.id = id ∧ Transfer.Receiver.Collects { manifest := hello.manifest } chunks after ∧
      after.complete = .ok data

/-- The receipt describes the bytes the node now has for the artifact, and the remote node sent
them as that artifact. -/
def Truthful (moments : List Moment) (net : Net) (node : NodeId) (id : String) (remote : NodeId)
    (receipt : Receipt) : Prop :=
  ∃ data, (net.distributors node).artifacts.lookup id = some data ∧
    receipt.hash = hash data ∧ receipt.bytes = data.length ∧
    SentUnder moments node remote id data

/-- The hello announces the object that was asked for, at the total length of its chunks. -/
structure Announces (hello : HelloBody) (id : String) : Prop where
  object : hello.object = objectArtifact
  id : hello.id = id
  size : hello.manifest.size = (hello.manifest.chunks.map (·.length)).sum

instance (hello : HelloBody) (id : String) : Decidable (Announces hello id) :=
  decidable_of_iff (hello.object = objectArtifact ∧ hello.id = id ∧
      hello.manifest.size = (hello.manifest.chunks.map (·.length)).sum)
    ⟨fun ⟨object, isId, size⟩ => ⟨object, isId, size⟩,
      fun ⟨object, isId, size⟩ => ⟨object, isId, size⟩⟩

/-- What a fetch asks for. -/
structure Asked where
  node : NodeId
  id : String
  remote : NodeId

/-- What a call fetches. -/
def asks : Call → Option Asked
  | .fetchArtifact _ node id remote => some { node, id, remote }
  | _ => none

/-- The receipt an event finds. -/
def finds : Event → Option Receipt
  | ⟨.cached .., found⟩ => found
  | _ => none

/-- The bytes an event keeps for an artifact of a node. -/
def keeps : Event → Option ((NodeId × String) × Bytes)
  | ⟨.putArtifact node id data, _⟩ => some ((node, id), data)
  | _ => none

/-- What a step has to meet for receipts to be truthful. A fetch takes its frames from the node
it asked, and a hello for the object it asked for; it finds a receipt only of its own object
and node; and no other bytes are kept for an artifact whose bytes are kept. -/
structure Genuine (calls : ℕ → Call) (past : List Moment) (moment : Moment) : Prop where
  taken : ∀ asked ∈ asks (calls moment.1), ∀ taken ∈ takesFrom asked.node moment,
    taken.2.message.sender = asked.remote ∧ (taken.2.message.kind = .hello →
      ∀ hello ∈ (decodeBody taken.2.message (·.hello)).toOption, Announces hello asked.id)
  found : ∀ asked ∈ asks (calls moment.1), ∀ receipt ∈ finds moment.2,
    receipt.artifactId = asked.id ∧ receipt.nodeId = asked.remote
  kept : ∀ kept ∈ keeps moment.2, ∀ earlier ∈ past, ∀ was ∈ keeps earlier.2,
    was.1 = kept.1 → was.2 = kept.2

instance (calls : ℕ → Call) (past : List Moment) (moment : Moment) :
    Decidable (Genuine calls past moment) :=
  decidable_of_iff (_ ∧ _ ∧ _)
    ⟨fun ⟨taken, found, kept⟩ => ⟨taken, found, kept⟩,
      fun ⟨taken, found, kept⟩ => ⟨taken, found, kept⟩⟩

variable {calls : ℕ → Call} {schedule : List (ℕ × Choice)}

/-- Bytes that were kept stay, as no others are kept in their place. -/
theorem artifact_of_kept {thread : ℕ} {node : NodeId} {id : String} {data : Bytes}
    (genuine : Guarded (Genuine calls) [] (Pool.trace respond (start {} calls) schedule))
    (isKept : (thread, (⟨.putArtifact node id data, ()⟩ : Event)) ∈
      Pool.trace respond (start {} calls) schedule) :
    ((Pool.run respond (start {} calls) schedule).shared.distributors node).artifacts.lookup id =
      some data := by
  let allKept (moments : List Moment) (pool : Net.Pool) : Prop :=
    Guarded (Genuine calls) [] moments →
      ∀ thread node id data, (thread, (⟨.putArtifact node id data, ()⟩ : Event)) ∈ moments →
        (pool.shared.distributors node).artifacts.lookup id = some data
  have everyKept : allKept (Pool.trace respond (start {} calls) schedule)
      (Pool.run respond (start {} calls) schedule) := by
    refine Pool.run_induction allKept (fun _ _ _ _ _ isThere => by cases isThere) ?_
    intro moments pool mover choice op next answer after earlier _ answers guarded other own artifact
      bytes isThere
    rcases guarded_append.mp guarded with ⟨pastGuarded, isGenuine, _⟩
    rcases List.mem_append.mp isThere with isPast | isNow
    · have wasThere := earlier pastGuarded other own artifact bytes isPast
      by_cases isPut : ∃ node id data, op = .putArtifact node id data
      · rcases isPut with ⟨place, name, content, rfl⟩
        cases answers
        by_cases isPlace : own = place
        · subst isPlace
          by_cases isName : artifact = name
          · subst isName
            have isSame : content = bytes := (isGenuine.kept _ rfl _ isPast _ rfl rfl).symm
            simp [onDistributor, isSame]
          · simp [onDistributor, AList.lookup_insert_ne isName, wasThere]
        · simp [onDistributor, isPlace, wasThere]
      · rw [Pool.advance_shared, artifacts_of_respond answers, wasThere]
        intro place name content isOp
        exact isPut ⟨place, name, content, isOp⟩
    · cases List.mem_singleton.mp isNow
      cases answers
      simp [onDistributor]
  exact everyKept genuine thread node id data isKept

/-- What a fetch pulled is what its receipt says, where the frames were genuine. -/
theorem truthful_of_pulled {thread fuel : ℕ} {node remote : NodeId} {id : String}
    {pulled : Manifest × Bytes} {events : List Event} (now : Time)
    (genuine : Guarded (Genuine calls) [] (Pool.trace respond (start {} calls) schedule))
    (isFetch : calls thread = .fetchArtifact fuel node id remote)
    (pulls : (Distributor.pullArtifact fuel node id remote).Does () events (.ok pulled) ())
    (areMoments : ∀ event ∈ events,
      (thread, event) ∈ Pool.trace respond (start {} calls) schedule)
    (isKept : (thread, (⟨.putArtifact node id pulled.2, ()⟩ : Event)) ∈
      Pool.trace respond (start {} calls) schedule) :
    Truthful (Pool.trace respond (start {} calls) schedule)
      (Pool.run respond (start {} calls) schedule).shared node id remote
      (Distributor.fetched id remote pulled.1 now) := by
  rcases pulled with ⟨manifest, data⟩
  rcases pullArtifact_ok pulls with ⟨greeting, hello, chunks, close, after, isHello, decodes, isManifest,
    collects, isClose, completes, areEvents⟩
  have sound : ∀ frame, (⟨.receive node, .ok frame⟩ : Event) ∈ events →
      SentBy remote node (Pool.trace respond (start {} calls) schedule) frame ∧
        ∀ hello, frame.message.kind = .hello →
          decodeBody frame.message (·.hello) = .ok hello → Announces hello id := by
    intro frame isTaken
    have isMoment := areMoments _ isTaken
    rcases List.mem_iff_append.mp isMoment with ⟨before, later, isTrace⟩
    have isAsked : Asked.mk node id remote ∈ asks (calls thread) := by simp [isFetch, asks]
    have isTaken : (thread, frame) ∈ takesFrom node (thread, ⟨.receive node, .ok frame⟩) := by
      simp [takesFrom]
    rcases (guarded_iff_split.mp genuine before _ later isTrace).taken _ isAsked _ isTaken with
      ⟨isSender, announces⟩
    have isSent := sentBy_of_takes (mem_takes.mpr isMoment)
    rw [isSender] at isSent
    refine ⟨isSent, fun hello isHello decodes => announces isHello hello ?_⟩
    rw [decodes]
    rfl
  rcases sound greeting (by simp [areEvents]) with ⟨greetingSent, announces⟩
  have announced := announces hello isHello decodes
  refine ⟨data, artifact_of_kept genuine isKept, ?_, ?_, greeting, hello, chunks, after, ?_, decodes,
    announced.object, announced.id, isManifest ▸ collects, completes⟩
  · change manifest.hash = hash data
    rw [(Transfer.Receiver.complete_ok completes).2.1, collects.manifest]
  · have isLength := (collects.verified
      (Transfer.Receiver.verified_new manifest)).length_of_complete completes
    rw [collects.manifest] at isLength
    change manifest.size = data.length
    rw [isLength, ← isManifest]
    exact announced.size
  · intro frame isFrame
    rcases List.mem_cons.mp isFrame with rfl | isChunk
    · exact greetingSent
    · rcases List.mem_map.mp isChunk with ⟨chunk, isThere, rfl⟩
      have isTaken : (⟨.receive node, .ok chunk.1⟩ : Event) ∈
          chunks.map (fun chunk => (⟨.receive node, .ok chunk.1⟩ : Event)) :=
        List.mem_map.mpr ⟨chunk, isThere, rfl⟩
      exact (sound chunk.1 (by simp [areEvents, isTaken])).1

/-- A receipt of an artifact that is stored was made by a fetch of it. -/
theorem truthful_of_stored {executor : ℕ} {node remote : NodeId} {id key : String}
    {receipt : Receipt}
    (genuine : Guarded (Genuine calls) [] (Pool.trace respond (start {} calls) schedule))
    (isStored : (executor, (⟨.store node key receipt, ()⟩ : Event)) ∈
      Pool.trace respond (start {} calls) schedule)
    (isId : receipt.artifactId = id) (isRemote : receipt.nodeId = remote) (isSome : id ≠ "") :
    Truthful (Pool.trace respond (start {} calls) schedule)
      (Pool.run respond (start {} calls) schedule).shared node id remote receipt := by
  have isOwn := Pool.mem_own.mpr isStored
  rcases (Pool.reaches_own respond (start {} calls) schedule executor).completes anyAnswer with
    ⟨later, value, behaves, _⟩
  have does : (calls executor).task.Does () _ value.1 value.2 := behaves
  rcases (calls executor).silent_or with
    silent | ⟨own, package, peer, isCall⟩ | ⟨fuel, own, artifact, peer, isCall⟩
  · exact absurd rfl (not_store_of_silent
      (silent _ _ _ _ does _ (List.mem_append_left _ isOwn)) node key receipt)
  · rw [isCall] at does
    rcases Task.does_map.mp does with ⟨outcome, distributes, _⟩
    rw [distribute_eq] at distributes
    split at distributes
    · have isNil := (List.append_eq_nil_iff.mp (Task.does_fail.mp distributes).1).1
      rw [isNil] at isOwn
      cases isOwn
    · rcases moved_of_stored (silent_wired.sendPackage _ _ _) (by simp) (Task.once_cases distributes)
        isOwn with ⟨_, _, _, _, _, _, _, rfl, _⟩
      exact absurd isId.symm isSome
  · rw [isCall] at does
    rcases Task.does_map.mp does with ⟨outcome, fetches, _⟩
    rw [fetchArtifact_eq] at fetches
    split at fetches
    · have isNil := (List.append_eq_nil_iff.mp (Task.does_fail.mp fetches).1).1
      rw [isNil] at isOwn
      cases isOwn
    · rcases moved_of_stored (silent_wired.pullArtifact _ _ _ _) (by simp) (Task.once_cases fetches)
        isOwn with ⟨rfl, _, pulled, events, _, now, pulls, rfl, areOwn⟩
      have sameId : artifact = id := isId
      have sameRemote : peer = remote := isRemote
      subst sameId sameRemote
      refine truthful_of_pulled now genuine isCall pulls (fun event isThere => ?_) ?_
      · rw [← Pool.mem_own, areOwn]
        simp [isThere]
      · rw [← Pool.mem_own, areOwn]
        simp

/-- In a run in which the frames, the receipts found and the artifacts kept are genuine, every
receipt a fetch returns is truthful. -/
theorem truthful_of_genuine (calls : ℕ → Call) (schedule : List (ℕ × Choice)) (thread fuel : ℕ)
    (node : NodeId) (id : String) (remote : NodeId) (receipt : Receipt)
    (genuine : Guarded (Genuine calls) [] (Pool.trace respond (start {} calls) schedule))
    (isFetch : calls thread = .fetchArtifact fuel node id remote)
    (returned : Returned (Pool.run respond (start {} calls) schedule) thread receipt) :
    Truthful (Pool.trace respond (start {} calls) schedule)
      (Pool.run respond (start {} calls) schedule).shared node id remote receipt := by
  have reaches := Pool.reaches_own respond (start {} calls) schedule thread
  rw [returned] at reaches
  have does : (calls thread).task.Does () _ (.ok (some receipt)) () := reaches.behaves
  rw [isFetch] at does
  rcases Task.does_map.mp does with ⟨outcome, fetches, isOutcome⟩
  rw [fetchArtifact_eq] at fetches
  split at fetches
  · rcases Task.does_fail.mp fetches with ⟨_, rfl⟩
    cases isOutcome
  rename_i isSome
  have idSome : id ≠ "" := (not_or.mp isSome).1
  cases outcome with
  | error raised => cases isOutcome
  | ok found =>
      cases isOutcome
      generalize isOwn : Pool.own thread (Pool.trace respond (start {} calls) schedule) = own at *
      cases Task.once_cases fetches with
      | hit =>
          have isMoment : (thread, (⟨.cached node (Distributor.artifactKey id remote),
              some receipt⟩ : Event)) ∈ Pool.trace respond (start {} calls) schedule := by
            rw [← Pool.mem_own, isOwn]
            simp
          rcases List.mem_iff_append.mp isMoment with ⟨before, later, isTrace⟩
          have isAsked : Asked.mk node id remote ∈ asks (calls thread) := by simp [isFetch, asks]
          rcases (guarded_iff_split.mp genuine before _ later isTrace).found _ isAsked receipt
            rfl with ⟨isId, isRemote⟩
          rcases stored_of_found isTrace with ⟨executor, wasMoment⟩
          have isMoment : (executor, (⟨.store node (Distributor.artifactKey id remote) receipt,
              ()⟩ : Event)) ∈ Pool.trace respond (start {} calls) schedule := by
            rw [isTrace]
            exact List.mem_append_left _ wasMoment
          exact truthful_of_stored genuine isMoment isId isRemote idSome
      | @moved _ pulled kept now moves =>
          have isStored : (thread, (⟨.store node (Distributor.artifactKey id remote)
              (Distributor.fetched id remote pulled.1 now), ()⟩ : Event)) ∈ Pool.trace respond (start {} calls) schedule := by
            rw [← Pool.mem_own, isOwn]
            simp
          exact truthful_of_stored genuine isStored rfl rfl idSome

/-! ## A fetch from an honest node, and one from another -/

/-- A fetch of an artifact that is published on the remote node, and a session of that node. -/
def publishedCalls (thread : ℕ) : Call :=
  match thread with
  | 0 => .fetchArtifact 2 "n" "a" "p"
  | 1 => .serve 0 "p" "n"
  | _ => .publish "p" { id := "a" } [7]

def publishedTurns : List (ℕ × Choice) :=
  [2, 0, 0, 0, 1, 1, 1, 1, 0, 0, 1, 1, 1, 0, 0, 0, 0, 0].map fun thread => (thread, {})

omit [ContentHash] in
theorem published_truthful :
    letI := textHash
    Truthful (Pool.trace respond (start {} publishedCalls) publishedTurns)
      (Pool.run respond (start {} publishedCalls) publishedTurns).shared "n" "a" "p"
      { transferId := "artifact:a:p", artifactId := "a", nodeId := "p", state := .complete
        hash := hash [7], bytes := 1, createdAt := "" } := by
  let _ := textHash
  refine truthful_of_genuine publishedCalls publishedTurns 0 2 "n" "a" "p" _ ?_ rfl ?_
  · decide +kernel
  · exact returned_of_value (by decide +kernel)

/-- A fetch, and a remote node that announces more bytes than it sends. -/
def boastfulCalls (thread : ℕ) : Call :=
  match thread with
  | 0 => .fetchArtifact 1 "n" "a" "p"
  | 1 => .send "p" "n"
      (helloMessage { object := objectArtifact, manifest := { id := "a", size := 999 }, id := "a" })
  | _ => .send "p" "n" Transfer.closeMessage

def boastfulTurns : List (ℕ × Choice) :=
  [1, 1, 2, 2, 0, 0, 0, 0, 0, 0, 0, 0, 0].map fun thread => (thread, {})

omit [ContentHash] in
/-- The receipt of the fetch counts bytes that nobody sent. -/
theorem boastful_not_truthful :
    letI := textHash
    ¬ ∀ (calls : ℕ → Call) (schedule : List (ℕ × Choice)) (thread fuel : ℕ)
      (node : NodeId) (id : String) (remote : NodeId) (receipt : Receipt),
      calls thread = .fetchArtifact fuel node id remote →
      Returned (Pool.run respond (start {} calls) schedule) thread receipt →
      Truthful (Pool.trace respond (start {} calls) schedule)
        (Pool.run respond (start {} calls) schedule).shared node id remote receipt := by
  intro truthful
  rcases truthful boastfulCalls boastfulTurns 0 1 "n" "a" "p"
    { transferId := "artifact:a:p", artifactId := "a", nodeId := "p", state := .complete
      hash := "", bytes := 999, createdAt := "" } rfl
    (returned_of_value (by decide +kernel)) with ⟨data, isKept, _, isLength, _⟩
  have isEmpty : ((Pool.run respond (@start textHash {} boastfulCalls) boastfulTurns).shared.distributors
      "n").artifacts.lookup "a" = some [] := by decide +kernel
  have isData : [] = data := Option.some.inj (isEmpty.symm.trans isKept)
  rw [← isData] at isLength
  exact absurd isLength (by decide)

end Net

end Aa.Sync
