import Aa.Sync.Executions

/-!
# A payload in chunks

The chunks of a source are the successive parts of its data, and a receiver that collects
all of them completes with that data.
-/

namespace Aa.Sync.Transfer

open Aa.Library Transport

variable [ContentHash]

/-! ## Cutting -/

/-- The part of the data at a position, of the length of a chunk if there is as much. -/
def partAt (data : Bytes) (chunkSize offset : ℕ) : Bytes := (data.drop offset).take chunkSize

omit [ContentHash] in
theorem take_stop (data : Bytes) (chunkSize offset : ℕ) :
    (data.drop offset).take (min (offset + chunkSize) data.length - offset) =
      partAt data chunkSize offset := by
  rw [partAt, List.take_eq_take_iff, List.length_drop]
  omega

theorem chunksFrom_succ (data : Bytes) (chunkSize rounds offset index : ℕ) :
    chunksFrom data chunkSize (rounds + 1) offset index =
      if offset < data.length then
        chunkOf index offset (partAt data chunkSize offset) ::
          chunksFrom data chunkSize rounds (offset + chunkSize) (index + 1)
      else [] := by
  simp only [chunksFrom, take_stop]

theorem chunk_of_chunksFrom {data : Bytes} {chunkSize rounds offset index position : ℕ}
    {chunk : Chunk}
    (isThere : (chunksFrom data chunkSize rounds offset index)[position]? = some chunk) :
    chunk = chunkOf (index + position) (offset + position * chunkSize)
      (partAt data chunkSize (offset + position * chunkSize)) := by
  induction rounds generalizing offset index position with
  | zero => simp [chunksFrom] at isThere
  | succ rounds ih =>
      rw [chunksFrom_succ] at isThere
      split at isThere
      · cases position with
        | zero =>
            cases isThere
            simp
        | succ position =>
            rw [List.getElem?_cons_succ] at isThere
            rw [ih isThere]
            have isIndex : index + 1 + position = index + (position + 1) := by omega
            have isOffset : offset + chunkSize + position * chunkSize =
                offset + (position + 1) * chunkSize := by
              rw [Nat.succ_mul]
              omega
            rw [isIndex, isOffset]
      · simp at isThere

/-- The parts of all chunks make up the data. -/
theorem flatMap_chunksFrom {data : Bytes} {chunkSize rounds offset index : ℕ}
    (enough : data.length ≤ offset + rounds * chunkSize) :
    ((List.range (chunksFrom data chunkSize rounds offset index).length).flatMap fun position =>
      partAt data chunkSize (offset + position * chunkSize)) = data.drop offset := by
  induction rounds generalizing offset index with
  | zero =>
      have isEnd : data.length ≤ offset := by omega
      simp [chunksFrom, List.drop_eq_nil_of_le isEnd]
  | succ rounds ih =>
      rw [chunksFrom_succ]
      split
      · have isNext : ∀ position, offset + (position + 1) * chunkSize =
            offset + chunkSize + position * chunkSize := by
          intro position
          rw [Nat.succ_mul]
          omega
        have enoughLater : data.length ≤ offset + chunkSize + rounds * chunkSize := by
          rw [← isNext]
          exact enough
        rw [List.length_cons, List.range_succ_eq_map, List.flatMap_cons, List.flatMap_map]
        simp only [Nat.succ_eq_add_one, isNext, Nat.zero_mul, Nat.add_zero]
        rw [ih enoughLater, partAt, ← List.drop_drop, List.take_append_drop]
      · rename_i isEnd
        simp [List.drop_eq_nil_of_le (Nat.le_of_not_lt isEnd)]

/-- The data of a chunk of the source. -/
def Source.part (source : Source) (index : ℤ) : Bytes :=
  partAt source.data source.manifest.chunkSize.toNat (index.toNat * source.manifest.chunkSize.toNat)

/-- A source whose manifest describes the successive parts of its data. -/
structure Source.Cut (source : Source) : Prop where
  chunk : ∀ position chunk, source.manifest.chunks[position]? = some chunk →
    chunk = chunkOf position (position * source.manifest.chunkSize.toNat) (source.part position)
  whole : source.data = (List.range source.manifest.chunks.length).flatMap
    fun position => source.part (position : ℕ)
  size : source.manifest.size = source.data.length
  hash : source.manifest.hash = hash source.data

theorem cut_of_newSource {id name : String} {data : Bytes} {chunkSize : ℤ} {source : Source}
    (builds : newSource id name data chunkSize = .ok source) :
    source.Cut ∧ source.data = data := by
  unfold newSource build at builds
  split at builds
  · cases builds
  · cases builds
    generalize isSize : (if chunkSize ≤ 0 then defaultChunkSize else chunkSize) = size
    have isPositive : 1 ≤ size.toNat := by
      rw [← isSize]
      split
      · decide
      · omega
    have enough : data.length ≤ 0 + data.length * size.toNat := by
      rw [Nat.zero_add]
      exact Nat.le_mul_of_pos_right _ isPositive
    refine ⟨⟨?_, ?_, rfl, rfl⟩, rfl⟩
    · intro position chunk isThere
      have isChunk := chunk_of_chunksFrom isThere
      simpa [Source.part] using isChunk
    · have isWhole := @flatMap_chunksFrom _ data _ _ 0 0 enough
      simpa [Source.part] using isWhole.symm

theorem Source.Cut.chunkData {source : Source} (cut : source.Cut) {index : ℤ} {data : Bytes}
    (reads : source.chunkData index = .ok data) :
    data = source.part index ∧ 0 ≤ index ∧
      ∃ want, source.manifest.chunks[index.toNat]? = some want ∧
        want.length = data.length ∧ want.hash = Sync.hash data := by
  unfold Source.chunkData at reads
  split at reads
  · cases reads
  · rename_i chunk isChunk
    split at isChunk
    · cases isChunk
    · rename_i isIndex
      have isCut := cut.chunk _ _ isChunk
      have isNat : ((index.toNat : ℕ) : ℤ) = index := by omega
      rw [isNat] at isCut
      dsimp only at reads
      split at reads
      · cases reads
      · split at reads
        · cases reads
        · cases reads
          have isData : (source.data.drop chunk.offset.toNat).take
              (chunk.offset + chunk.length - chunk.offset).toNat = source.part index := by
            rw [isCut]
            simp only [chunkOf, Int.toNat_natCast]
            rw [Source.part, partAt, List.take_eq_take_iff, List.length_take]
            omega
          rw [isData]
          refine ⟨rfl, by omega, chunk, isChunk, ?_, ?_⟩
          · rw [isCut]
            rfl
          · rw [isCut]
            rfl

/-! ## Collecting -/

/-- The frame carries a chunk of the source. -/
structure Source.Carried (source : Source) (chunk : Frame × ChunkBody) : Prop where
  kind : chunk.1.message.kind = .chunk
  decodes : decodeBody chunk.1.message (·.chunk) = .ok chunk.2
  data : source.chunkData chunk.2.chunk.index = .ok chunk.2.data

/-- The receiver holds a part of the source. -/
structure Receiver.Has (receiver : Receiver) (source : Source) (index : ℤ) : Prop where
  held : receiver.isHeld index = true
  part : receiver.parts.lookup index = some (source.part index)

theorem Source.Cut.accept {source : Source} (cut : source.Cut) {receiver : Receiver}
    {chunk : Frame × ChunkBody} (isManifest : receiver.manifest = source.manifest)
    (carried : source.Carried chunk) :
    ∃ after, receiver.accept chunk.2.chunk chunk.2.data = .ok after ∧
      after.manifest = source.manifest ∧ after.Has source chunk.2.chunk.index ∧
      ∀ index, receiver.Has source index → after.Has source index := by
  rcases cut.chunkData carried.data with ⟨isPart, isIndex, want, isWant, isLength, isHash⟩
  refine ⟨{ receiver with
    parts := receiver.parts.insert chunk.2.chunk.index chunk.2.data
    held := receiver.held.insert chunk.2.chunk.index true }, ?_, isManifest, ?_, ?_⟩
  · simp [Receiver.accept, isManifest, isWant, isLength, isHash, Int.not_lt.mpr isIndex]
  · exact ⟨by simp [Receiver.isHeld], by simp [isPart]⟩
  · intro index has
    by_cases isChunk : index = chunk.2.chunk.index
    · subst isChunk
      exact ⟨by simp [Receiver.isHeld], by simp [isPart]⟩
    · constructor
      · rw [Receiver.isHeld, AList.lookup_insert_ne isChunk]
        exact has.held
      · rw [AList.lookup_insert_ne isChunk]
        exact has.part

/-- A receiver accepts the chunks of a source one after the other. -/
theorem Source.Cut.collects {source : Source} (cut : source.Cut) {receiver : Receiver}
    {chunks : List (Frame × ChunkBody)} (isManifest : receiver.manifest = source.manifest)
    (carried : ∀ chunk ∈ chunks, source.Carried chunk) :
    ∃ after, receiver.Collects chunks after ∧ after.manifest = source.manifest ∧
      ∀ index, (receiver.Has source index ∨ ∃ chunk ∈ chunks, chunk.2.chunk.index = index) →
        after.Has source index := by
  induction chunks generalizing receiver with
  | nil => exact ⟨receiver, .refl receiver, isManifest, fun index has => by simpa using has⟩
  | cons chunk rest ih =>
      have isCarried := carried chunk (by simp)
      rcases cut.accept isManifest isCarried with ⟨middle, accepts, isMiddle, hasChunk, kept⟩
      rcases ih isMiddle fun later isLater => carried later (by simp [isLater]) with
        ⟨after, collects, isAfter, has⟩
      refine ⟨after, .chunk isCarried.kind isCarried.decodes accepts collects, isAfter, ?_⟩
      rintro index (hasIndex | ⟨other, isOther, rfl⟩)
      · exact has index (.inl (kept index hasIndex))
      · rcases List.mem_cons.mp isOther with rfl | isRest
        · exact has _ (.inl hasChunk)
        · exact has _ (.inr ⟨other, isRest, rfl⟩)

/-- A receiver that holds every part of a source completes with its data. -/
theorem Source.Cut.complete {source : Source} (cut : source.Cut) {receiver : Receiver}
    (isManifest : receiver.manifest = source.manifest)
    (fits : (source.data.length : ℤ) ≤ maxAlloc)
    (has : ∀ position : ℕ, position < source.manifest.chunks.length → receiver.Has source position) :
    receiver.complete = .ok source.data := by
  have noneMissing : receiver.missing = [] := by
    refine List.filter_eq_nil_iff.mpr fun index isIndex => ?_
    rcases List.mem_map.mp isIndex with ⟨position, isPosition, rfl⟩
    rw [isManifest] at isPosition
    simp [(has position (List.mem_range.mp isPosition)).held]
  have isBuffer : (receiver.indexes.flatMap fun index => (receiver.parts.lookup index).getD []) =
      source.data := by
    rw [cut.whole, Receiver.indexes, List.flatMap_map, isManifest]
    refine List.flatMap_congr fun position isPosition => ?_
    rw [(has position (List.mem_range.mp isPosition)).part]
    rfl
  have isAllocated : ¬ (receiver.manifest.size < 0 ∨ maxAlloc < receiver.manifest.size) := by
    rw [isManifest, cut.size]
    omega
  simp only [Receiver.complete, noneMissing, isAllocated, isBuffer, ne_eq, not_true_eq_false,
    if_false]
  rw [isManifest, cut.hash, if_neg (not_not.mpr rfl)]

/-- All chunks of a source, in any number of frames, are collected to its data. -/
theorem Source.Cut.round_trip {source : Source} (cut : source.Cut)
    {chunks : List (Frame × ChunkBody)} (fits : (source.data.length : ℤ) ≤ maxAlloc)
    (carried : ∀ chunk ∈ chunks, source.Carried chunk)
    (all : chunks.map (·.2.chunk) = source.manifest.chunks) :
    ∃ after, Receiver.Collects { manifest := source.manifest } chunks after ∧
      after.complete = .ok source.data := by
  have fresh : (Receiver.mk source.manifest ∅ ∅).manifest = source.manifest := rfl
  rcases cut.collects fresh carried with ⟨after, collects, isManifest, has⟩
  refine ⟨after, collects, cut.complete isManifest fits fun position isPosition => ?_⟩
  refine has position (.inr ?_)
  have isChunk := cut.chunk position _ (List.getElem?_eq_getElem isPosition)
  have isThere : source.manifest.chunks[position] ∈ chunks.map (·.2.chunk) := by
    rw [all]
    exact List.getElem_mem isPosition
  rcases List.mem_map.mp isThere with ⟨chunk, isCarried, isSame⟩
  refine ⟨chunk, isCarried, ?_⟩
  rw [isSame, isChunk]
  rfl

end Aa.Sync.Transfer
