import Aa.Memory.History

/-!
# Superseding a strategy

Superseding is two writes: the old strategy becomes superseded, and the new one points back at
it. The old strategy is written before the new one is read, and nothing takes the first write
back. So superseding is all or nothing exactly if nothing is written for the old strategy or
nothing stands in the way of the new one.
-/

set_option linter.dupNamespace false

namespace Aa.Memory

open Aa.Library Aa.Contracts

variable {Data : Type} {codec : Codec Data}

/-- Documents of one hash hold one value: no two texts have one SHA-256, and no two values are
written as one text. -/
structure Codec.Discerns (codec : Codec Data) : Prop where
  eq_of_hash : ∀ {first second : Data} {value other : Json},
    codec.unmarshal first = .ok value → codec.unmarshal second = .ok other →
    codec.sha256Hex (codec.marshal value) = codec.sha256Hex (codec.marshal other) → value = other

theorem Codec.Discerns.unmarshal_eq (discerns : codec.Discerns) {first second : Data}
    {hash : String} (isFirst : codec.hashBytes first = .ok hash)
    (isSecond : codec.hashBytes second = .ok hash) :
    codec.unmarshal first = codec.unmarshal second := by
  simp only [Codec.hashBytes, Codec.canonicalize] at isFirst isSecond
  cases unmarshalled : codec.unmarshal first with
  | error message =>
      rw [unmarshalled] at isFirst
      cases isFirst
  | ok value =>
      cases otherUnmarshalled : codec.unmarshal second with
      | error message =>
          rw [otherUnmarshalled] at isSecond
          cases isSecond
      | ok other =>
          rw [unmarshalled] at isFirst
          rw [otherUnmarshalled] at isSecond
          have sameHash := Except.ok.inj (isFirst.trans isSecond.symm)
          rw [discerns.eq_of_hash unmarshalled otherUnmarshalled sameHash]

/-! ## What the data of a strategy says -/

namespace Record

variable (codec) in
/-- The data of a record has a text in a field, as `encoding/json` finds the field. -/
def Says (record : Record Data) (name text : String) : Prop :=
  (codec.unmarshal record.data).bind
    (fun value => GoJson.struct "struct" [(name, GoJson.string)] value "") = .ok text

theorem Says.unique {record : Record Data} {name text other : String}
    (first : record.Says codec name text) (second : record.Says codec name other) :
    text = other := Except.ok.inj (first.symm.trans second)

theorem Says.of_unmarshal {record other : Record Data} {name text : String}
    (saysText : record.Says codec name text)
    (same : codec.unmarshal record.data = codec.unmarshal other.data) :
    other.Says codec name text := by
  rwa [Says, ← same]

end Record

/-- A decoded strategy has the texts of the fields. -/
theorem decodeStrategy_strings {value : Json} {strategy : V1.Strategy}
    (decodes : V1.decodeStrategy value {} = .ok strategy) :
    GoJson.struct "struct" [("id", GoJson.string)] value "" = .ok strategy.id ∧
      GoJson.struct "struct" [("lifecycle", GoJson.string)] value "" = .ok strategy.lifecycle := by
  unfold V1.decodeStrategy at decodes
  constructor
  · refine GoJson.struct_project (fun target : V1.Strategy => target.id) (by decide) ?_ decodes
    simp only [V1.envelopeFields, List.cons_append, List.nil_append, List.forall_mem_cons,
      List.not_mem_nil, false_implies, implies_true, and_true]
    and_intros
    all_goals first
      | exact .inr ⟨by decide, GoJson.keeps_field fun _ _ => rfl⟩
      | exact .inl ⟨rfl, fun _ _ _ => GoJson.decodes_of_field fun _ _ => rfl⟩
  · refine GoJson.struct_project (fun target : V1.Strategy => target.lifecycle) (by decide) ?_
      decodes
    simp only [V1.envelopeFields, List.cons_append, List.nil_append, List.forall_mem_cons,
      List.not_mem_nil, false_implies, implies_true, and_true]
    and_intros
    all_goals first
      | exact .inr ⟨by decide, GoJson.keeps_field fun _ _ => rfl⟩
      | exact .inl ⟨rfl, fun _ _ _ => GoJson.decodes_of_field fun _ _ => rfl⟩

namespace Memory

variable {memory : Memory Data} {id : String}

/-- A strategy that is read is what its record says. -/
theorem says_of_get {failure : Option String} {strategy : V1.Strategy}
    (reads : StrategyRepository.get codec failure memory id = .ok strategy) :
    ∃ record, memory.store.files.lookup (Layout.fileOf "strategy" id) = some record ∧
      record.Says codec "id" strategy.id ∧ record.Says codec "lifecycle" strategy.lifecycle := by
  rcases getTyped_spec reads with ⟨record, value, found, unmarshalled, decodes⟩
  rcases decodeStrategy_strings decodes with ⟨isId, isLifecycle⟩
  refine ⟨record, found, ?_, ?_⟩
  · rw [Record.Says, unmarshalled]
    exact isId
  · rw [Record.Says, unmarshalled]
    exact isLifecycle

end Memory

/-- Objects keep their texts through a write and a reading. -/
theorem Codec.Rereads.strings (rereads : codec.Rereads) {written : Json.Object} {value : Json}
    {names : List String} (nodup : (written.map Prod.fst).Nodup)
    (known : written.map Prod.fst ⊆ names)
    (reads : codec.unmarshal (codec.marshal (.obj written)) = .ok value) :
    ∃ read, value = .obj read ∧ (read.map Prod.fst).Nodup ∧ read.map Prod.fst ⊆ names ∧
      ∀ name text, (name, .str text) ∈ written → (name, .str text) ∈ read := by
  rcases rereads.entries nodup reads with ⟨read, isObject, sameKeys, strings, -⟩
  exact ⟨read, isObject, sameKeys.nodup_iff.mpr nodup,
    fun name isKey => known (sameKeys.mem_iff.mp isKey), strings⟩

theorem supersedes_mem {strategy : V1.Strategy} {entries : Json.Object}
    (isObject : strategy.toJson = .obj entries) (nonempty : strategy.supersedes ≠ "") :
    ("supersedes", .str strategy.supersedes) ∈ entries := by
  cases Json.obj.inj isObject
  simp [V1.optionalMember, V1.member, nonempty]

/-- A record built from a strategy says what the strategy says, and is stored as it is. -/
theorem says_of_newRecord (lawful : codec.Lawful) (rereads : codec.Rereads)
    {strategy : V1.Strategy} {revision : ℤ} (hasRevision : strategy.revision = some revision)
    {record : Record Data}
    (built : newRecord codec "strategy" strategy.id revision (codec.marshal strategy.toJson) =
      .ok record) :
    record.kind = "strategy" ∧ record.id = strategy.id ∧ record.stored codec = record ∧
      record.Says codec "id" strategy.id ∧ record.Says codec "lifecycle" strategy.lifecycle ∧
      (strategy.supersedes ≠ "" → record.Says codec "supersedes" strategy.supersedes) := by
  rcases newRecord_spec built with ⟨-, isKind, isId, -, value, hashed, unmarshalled, isData, again⟩
  rcases V1.Strategy.toJson_tells hasRevision with ⟨entries, isObject, told⟩
  rw [isObject] at unmarshalled
  rcases rereads.strings told.nodup told.known unmarshalled with
    ⟨read, rfl, readNodup, readKnown, readStrings⟩
  rw [isData] at again
  rcases rereads.strings readNodup readKnown again with
    ⟨reread, rfl, rereadNodup, rereadKnown, rereadStrings⟩
  have holds : ∀ name text, (∀ other ∈ V1.Strategy.names,
      GoJson.foldName name = GoJson.foldName other → other = name) →
      (name, .str text) ∈ entries → record.Says codec name text := by
    intro name text alone isThere
    rw [Record.Says, isData, again]
    change GoJson.struct "struct" [(name, GoJson.string)] (.obj reread) "" = .ok text
    exact GoJson.struct_string rereadNodup (fun other isKey => alone other (rereadKnown isKey))
      (rereadStrings _ _ (readStrings _ _ isThere)) ""
  have storedEq : record.stored codec = record := by
    cases record
    simp only at isData
    simp [Record.stored, isData, lawful.compact_marshal]
  exact ⟨isKind, isId, storedEq, holds "id" _ (by decide) told.id,
    holds "lifecycle" _ (by decide) told.state,
    fun nonempty => holds "supersedes" _ (by decide) (supersedes_mem isObject nonempty)⟩

/-! ## The records of a store -/

namespace Store

variable (codec) in
/-- The hash of each record is that of its data. -/
def Hashed (store : Store Data) : Prop :=
  ∀ path record, store.files.lookup path = some record →
    codec.hashBytes record.data = .ok record.hash

variable (codec) in
/-- The strategy of an id has a text in a field: its record says the id and the text. -/
def Says (store : Store Data) (id name text : String) : Prop :=
  ∃ record, store.files.lookup (Layout.fileOf "strategy" id) = some record ∧
    record.Says codec "id" id ∧ record.Says codec name text

theorem Says.of_lookup {store after : Store Data} {id name text : String}
    (saysText : store.Says codec id name text)
    (same : after.files.lookup (Layout.fileOf "strategy" id) =
      store.files.lookup (Layout.fileOf "strategy" id)) : after.Says codec id name text := by
  rcases saysText with ⟨record, found, rest⟩
  exact ⟨record, same.trans found, rest⟩

variable (codec) in
/-- The store has a record with the hash of the record, and reads it. -/
def Matches (disk : Disk) (store : Store Data) (record : Record Data) : Prop :=
  record.validate codec = .ok () ∧ disk.existing = none ∧
    ∃ existing ∈ store.files.lookup (Layout.fileOf record.kind record.id),
      existing.hash = record.hash

theorem putRecordOn_of_matches {disk : Disk} {store : Store Data} {record : Record Data}
    (isThere : store.Matches codec disk record) :
    store.putRecordOn codec disk record = (.ok false, store) := by
  rcases isThere with ⟨valid, readable, existing, found, sameHash⟩
  have path : Layout.recordPath record.kind record.id = .ok (Layout.fileOf record.kind record.id) :=
    recordPath_of_valid valid
  have held : store.files.lookup (Layout.fileOf record.kind record.id) = some existing := found
  simp [putRecordOn, valid, path, readable, held, sameHash]

theorem putRecordOn_of_refused {disk : Disk} {store : Store Data} {record : Record Data}
    (notTaken : ¬ store.Takes codec disk record) (notThere : ¬ store.Matches codec disk record) :
    ∃ message, store.putRecordOn codec disk record = (.error message, store) := by
  cases valid : record.validate codec with
  | error message => exact ⟨message, by simp [putRecordOn, valid]⟩
  | ok =>
      have path : Layout.recordPath record.kind record.id =
          .ok (Layout.fileOf record.kind record.id) := recordPath_of_valid valid
      cases readable : disk.existing with
      | some message => exact ⟨message, by simp [putRecordOn, valid, path, readable]⟩
      | none =>
          cases held : store.files.lookup (Layout.fileOf record.kind record.id) with
          | none =>
              cases writable : disk.write with
              | none => exact absurd ⟨valid, readable, writable, by simp [held]⟩ notTaken
              | some message =>
                  exact ⟨message, by simp [putRecordOn, valid, path, readable, held, writable]⟩
          | some existing =>
              have other : existing.hash ≠ record.hash := fun same =>
                notThere ⟨valid, readable, existing, held, same⟩
              by_cases stale : record.revision ≤ existing.revision
              · exact ⟨staleMessage record existing,
                  by simp [putRecordOn, valid, path, readable, held, other, stale]⟩
              · cases writable : disk.write with
                | none =>
                    refine absurd ⟨valid, readable, writable, ?_⟩ notTaken
                    intro current isHeld
                    cases Option.some.inj (held.symm.trans isHeld)
                    exact ⟨other, not_le.mp stale⟩
                | some message =>
                    exact ⟨message,
                      by simp [putRecordOn, valid, path, readable, held, other, stale, writable]⟩

variable (codec) in
/-- What is written is found at its file, and every other file is as it was. -/
theorem lookup_written (store : Store Data) (record : Record Data) :
    (store.written codec record).files.lookup (Layout.fileOf record.kind record.id) =
      some (record.stored codec) := AList.lookup_insert _

theorem lookup_written_ne {store : Store Data} {record : Record Data} {path : String}
    (elsewhere : path ≠ Layout.fileOf record.kind record.id) :
    (store.written codec record).files.lookup path = store.files.lookup path :=
  AList.lookup_insert_ne elsewhere

/-- A write the store takes changes the file. -/
theorem Takes.changes {disk : Disk} {store : Store Data} {record : Record Data}
    (takes : store.Takes codec disk record) :
    (store.written codec record).files.lookup (Layout.fileOf record.kind record.id) ≠
      store.files.lookup (Layout.fileOf record.kind record.id) := by
  rw [lookup_written]
  intro same
  exact (takes.2.2.2 _ same.symm).1 (Record.stored_hash codec record)

theorem Hashed.written {store : Store Data} (hashed : store.Hashed codec) {record : Record Data}
    (isRecord : codec.hashBytes (record.stored codec).data = .ok record.hash) :
    (store.written codec record).Hashed codec := by
  intro path held found
  by_cases isPath : path = Layout.fileOf record.kind record.id
  · rw [isPath, lookup_written] at found
    cases Option.some.inj found
    exact isRecord
  · rw [lookup_written_ne isPath] at found
    exact hashed path held found

end Store

theorem hash_of_validate {record : Record Data} (valid : record.validate codec = .ok ()) :
    codec.hashBytes record.data = .ok record.hash := by
  unfold Record.validate at valid
  split at valid
  · cases valid
  · split at valid
    · cases valid
    · split at valid
      · cases valid
      · split at valid
        · cases valid
        · rename_i hash isHash
          split at valid
          · cases valid
          · rename_i same
            rw [isHash, not_not.mp same]

/-! ## All or nothing -/

namespace StrategyRepository

variable (codec) in
/-- The old strategy is superseded by the new one, and no other record has changed. -/
structure Superseded (before after : Store Data) (oldID newID : String) : Prop where
  old : after.Says codec oldID "lifecycle" "SUPERSEDED"
  new : after.Says codec newID "supersedes" oldID
  others : ∀ path, path ≠ Layout.fileOf "strategy" oldID → path ≠ Layout.fileOf "strategy" newID →
    after.files.lookup path = before.files.lookup path

variable (codec) in
/-- A call that failed has left every record as it was, and one that succeeded has superseded the
old strategy by the new one. -/
structure Atomic (memory : Memory Data) (oldID newID : String)
    (result : Except String Unit × Memory Data) : Prop where
  failed : ∀ message, result.1 = .error message → ∀ path,
    result.2.store.files.lookup path = memory.store.files.lookup path
  succeeded : result.1 = .ok () → Superseded codec memory.store result.2.store oldID newID

/-! ## What a strategy needs to be written -/

variable (codec) in
/-- The strategy is valid, and its record is one the store takes. -/
def Writes (disk : Disk) (store : Store Data) (strategy : V1.Strategy) (revision : ℤ) : Prop :=
  strategy.validate = .ok () ∧ ∃ record,
    newRecord codec "strategy" strategy.id revision (codec.marshal strategy.toJson) = .ok record ∧
      store.Takes codec disk record

variable (codec) in
/-- The strategy is valid, and the store has a record of its hash. -/
def Finds (disk : Disk) (store : Store Data) (strategy : V1.Strategy) (revision : ℤ) : Prop :=
  strategy.validate = .ok () ∧ ∃ record,
    newRecord codec "strategy" strategy.id revision (codec.marshal strategy.toJson) = .ok record ∧
      store.Matches codec disk record

/-- The revision of the next version of a strategy. -/
def nextRevision (disk : Disk) (memory : Memory Data) (id : String) : ℤ :=
  revisionOf disk.revision memory "strategy" id + 1

/-- A strategy as it is superseded. -/
def retired (strategy : V1.Strategy) (revision : ℤ) : V1.Strategy :=
  { strategy with lifecycle := "SUPERSEDED", revision := some revision }

/-- A strategy as it supersedes another. -/
def pointed (strategy : V1.Strategy) (oldID : String) (revision : ℤ) : V1.Strategy :=
  { strategy with supersedes := oldID, revision := some revision }

variable (codec) in
/-- Something is written for the old strategy: it is active, and its change is taken. -/
def Retires (disk : Disk) (memory : Memory Data) (oldID : String) : Prop :=
  ∃ old, get codec disk.get memory oldID = .ok old ∧ old.lifecycle = "ACTIVE" ∧
    Writes codec disk memory.store (retired old (nextRevision disk memory oldID))
      (nextRevision disk memory oldID)

variable (codec) in
/-- The old strategy is superseded already, or its change is there. -/
def Rests (disk : Disk) (memory : Memory Data) (oldID : String) : Prop :=
  ∃ old, get codec disk.get memory oldID = .ok old ∧
    (old.lifecycle = "SUPERSEDED" ∨ old.lifecycle = "ACTIVE" ∧
      Finds codec disk memory.store (retired old (nextRevision disk memory oldID))
        (nextRevision disk memory oldID))

variable (codec) in
/-- Nothing stands in the way of the new strategy: it can be read, it is valid as it points at the
old one, and its record is taken or there. -/
def Succeeds (disk : Disk) (memory : Memory Data) (oldID newID : String) : Prop :=
  ∃ next, get codec disk.get memory newID = .ok next ∧
    (Writes codec disk memory.store (pointed next oldID (nextRevision disk memory newID))
        (nextRevision disk memory newID) ∨
      Finds codec disk memory.store (pointed next oldID (nextRevision disk memory newID))
        (nextRevision disk memory newID))

variable (codec) in
/-- A strategy that is read under an id has the id. -/
def Own (failure : Option String) (memory : Memory Data) (id : String) : Prop :=
  ∀ strategy, get codec failure memory id = .ok strategy → strategy.id = id

variable (codec) in
/-- Superseding keeps to all or nothing: the ids are the same; or nothing is written for the old
strategy, and it cannot be superseded or nothing can succeed it; or the new strategy succeeds the
old one, and both have the ids they are stored under. -/
def Safe (oldDisk newDisk : Disk) (memory : Memory Data) (oldID newID : String) : Prop :=
  oldID = newID ∨
    (¬ Retires codec oldDisk memory oldID ∧
      (¬ Rests codec oldDisk memory oldID ∨ ¬ Succeeds codec newDisk memory oldID newID)) ∨
    (Succeeds codec newDisk memory oldID newID ∧ Own codec oldDisk.get memory oldID ∧
      Own codec newDisk.get memory newID)

/-! ## The two writes -/

variable {α : Type}

variable (codec) in
/-- A changed strategy is validated and written. -/
def revise (disk : Disk) (memory : Memory Data) (strategy : V1.Strategy) (revision : ℤ)
    (answer : α) : Except String α × Memory Data :=
  match strategy.validate with
  | .error message => (.error message, memory)
  | .ok () =>
      match putTyped codec disk memory "strategy" strategy.id revision strategy.toJson with
      | (.error message, memory) => (.error message, memory)
      | (.ok _, memory) => (.ok answer, memory)

variable (codec) in
theorem revise_outcome (disk : Disk) (memory : Memory Data) (strategy : V1.Strategy)
    (revision : ℤ) (answer : α) :
    (∃ record after, strategy.validate = .ok () ∧
        newRecord codec "strategy" strategy.id revision (codec.marshal strategy.toJson) =
          .ok record ∧
        memory.store.Takes codec disk record ∧
        revise codec disk memory strategy revision answer = (.ok answer, after) ∧
        after.store = memory.store.written codec record) ∨
      (Finds codec disk memory.store strategy revision ∧
        ¬ Writes codec disk memory.store strategy revision ∧
        revise codec disk memory strategy revision answer = (.ok answer, memory)) ∨
      (¬ Writes codec disk memory.store strategy revision ∧
        ¬ Finds codec disk memory.store strategy revision ∧
        ∃ message, revise codec disk memory strategy revision answer =
          (.error message, memory)) := by
  rw [revise]
  cases valid : strategy.validate with
  | error message =>
      right; right
      simp [Writes, Finds, valid]
  | ok =>
      simp only [putTyped]
      cases built : newRecord codec "strategy" strategy.id revision
          (codec.marshal strategy.toJson) with
      | error message =>
          right; right
          simp [Writes, Finds, built]
      | ok record =>
          by_cases takes : memory.store.Takes codec disk record
          · left
            simp only [Store.putRecordOn_of_takes takes]
            exact ⟨record, _, trivial, rfl, takes, rfl, rfl⟩
          · by_cases isThere : memory.store.Matches codec disk record
            · right; left
              simp only [Store.putRecordOn_of_matches isThere]
              refine ⟨⟨valid, record, built, isThere⟩, ?_, trivial⟩
              rintro ⟨-, other, isOther, isTaken⟩
              cases Except.ok.inj (built.symm.trans isOther)
              exact takes isTaken
            · right; right
              rcases Store.putRecordOn_of_refused takes isThere with ⟨message, refused⟩
              simp only [refused]
              refine ⟨?_, ?_, message, rfl⟩
              · rintro ⟨-, other, isOther, isTaken⟩
                cases Except.ok.inj (built.symm.trans isOther)
                exact takes isTaken
              · rintro ⟨-, other, isOther, isFound⟩
                cases Except.ok.inj (built.symm.trans isOther)
                exact isThere isFound

theorem checkTransition_superseded (lifecycle : String) :
    checkTransition lifecycle "SUPERSEDED" = .ok () ↔
      lifecycle = "SUPERSEDED" ∨ lifecycle = "ACTIVE" := by
  unfold checkTransition transitions
  split
  · rename_i same
    simp [same]
  · rename_i other
    split
    all_goals simp_all

theorem transition_of_checked {disk : Disk} {memory : Memory Data} {oldID : String}
    {old : V1.Strategy} (reads : get codec disk.get memory oldID = .ok old)
    (isActive : old.lifecycle = "ACTIVE") :
    transition codec disk memory oldID "SUPERSEDED" =
      revise codec disk memory (retired old (nextRevision disk memory oldID))
        (nextRevision disk memory oldID) (retired old (nextRevision disk memory oldID)) := by
  have checked : checkTransition old.lifecycle "SUPERSEDED" = .ok () :=
    (checkTransition_superseded _).mpr (.inr isActive)
  have other : old.lifecycle ≠ "SUPERSEDED" := by simp [isActive]
  rw [transition]
  simp only [reads, checked, if_neg other]
  rfl

theorem transition_of_superseded {disk : Disk} {memory : Memory Data} {oldID : String}
    {old : V1.Strategy} (reads : get codec disk.get memory oldID = .ok old)
    (already : old.lifecycle = "SUPERSEDED") :
    transition codec disk memory oldID "SUPERSEDED" = (.ok old, memory) := by
  have checked : checkTransition old.lifecycle "SUPERSEDED" = .ok () :=
    (checkTransition_superseded _).mpr (.inl already)
  rw [transition]
  simp only [reads, checked, if_pos already]

theorem transition_of_unchecked {disk : Disk} {memory : Memory Data} {oldID : String}
    (barred : ∀ old, get codec disk.get memory oldID = .ok old →
      ¬ (old.lifecycle = "SUPERSEDED" ∨ old.lifecycle = "ACTIVE")) :
    ∃ message, transition codec disk memory oldID "SUPERSEDED" = (.error message, memory) := by
  rw [transition]
  cases reads : get codec disk.get memory oldID with
  | error message => exact ⟨message, rfl⟩
  | ok old =>
      cases checked : checkTransition old.lifecycle "SUPERSEDED" with
      | error message => exact ⟨_, by simp only [checked]; rfl⟩
      | ok => exact absurd ((checkTransition_superseded _).mp checked) (barred old reads)

variable (codec) in
/-- The first half: the old strategy is written, rests, or cannot be superseded. -/
theorem transition_outcome (disk : Disk) (memory : Memory Data) (oldID : String) :
    (∃ old record strategy after, get codec disk.get memory oldID = .ok old ∧
        newRecord codec "strategy" old.id (nextRevision disk memory oldID)
          (codec.marshal (retired old (nextRevision disk memory oldID)).toJson) = .ok record ∧
        memory.store.Takes codec disk record ∧ Retires codec disk memory oldID ∧
        transition codec disk memory oldID "SUPERSEDED" = (.ok strategy, after) ∧
        after.store = memory.store.written codec record) ∨
      (Rests codec disk memory oldID ∧ ¬ Retires codec disk memory oldID ∧
        ∃ strategy, transition codec disk memory oldID "SUPERSEDED" = (.ok strategy, memory)) ∨
      (¬ Retires codec disk memory oldID ∧ ¬ Rests codec disk memory oldID ∧
        ∃ message, transition codec disk memory oldID "SUPERSEDED" =
          (.error message, memory)) := by
  by_cases canBe : ∃ old, get codec disk.get memory oldID = .ok old ∧
      (old.lifecycle = "SUPERSEDED" ∨ old.lifecycle = "ACTIVE")
  · rcases canBe with ⟨old, reads, already | isActive⟩
    · right; left
      refine ⟨⟨old, reads, .inl already⟩, ?_, old, transition_of_superseded reads already⟩
      rintro ⟨other, isOther, isActive, -⟩
      cases Except.ok.inj (reads.symm.trans isOther)
      simp [already] at isActive
    · rw [transition_of_checked reads isActive]
      have isRetired : Retires codec disk memory oldID ↔
          Writes codec disk memory.store (retired old (nextRevision disk memory oldID))
            (nextRevision disk memory oldID) := by
        simp [Retires, reads, isActive]
      have isRest : Rests codec disk memory oldID ↔
          Finds codec disk memory.store (retired old (nextRevision disk memory oldID))
            (nextRevision disk memory oldID) := by
        simp [Rests, reads, isActive]
      rcases revise_outcome codec disk memory
          (retired old (nextRevision disk memory oldID)) (nextRevision disk memory oldID)
          (retired old (nextRevision disk memory oldID)) with
        ⟨record, after, valid, built, takes, revised, isStore⟩ | ⟨finds, notWritten, revised⟩ |
          ⟨notWritten, notFound, message, revised⟩
      · left
        exact ⟨old, record, _, after, reads, built, takes,
          isRetired.mpr ⟨valid, record, built, takes⟩, revised, isStore⟩
      · right; left
        exact ⟨isRest.mpr finds, fun retires => notWritten (isRetired.mp retires), _, revised⟩
      · right; right
        exact ⟨fun retires => notWritten (isRetired.mp retires),
          fun rests => notFound (isRest.mp rests), message, revised⟩
  · right; right
    refine ⟨?_, ?_, transition_of_unchecked fun old reads can => canBe ⟨old, reads, can⟩⟩
    · rintro ⟨old, reads, isActive, -⟩
      exact canBe ⟨old, reads, .inr isActive⟩
    · rintro ⟨old, reads, already | ⟨isActive, -⟩⟩
      · exact canBe ⟨old, reads, .inl already⟩
      · exact canBe ⟨old, reads, .inr isActive⟩

variable (codec) in
/-- The second half: the new strategy is read, points at the old one, and is written. -/
def adopt (disk : Disk) (memory : Memory Data) (oldID newID : String) :
    Except String Unit × Memory Data :=
  match get codec disk.get memory newID with
  | .error message => (.error message, memory)
  | .ok next =>
      revise codec disk memory (pointed next oldID (nextRevision disk memory newID))
        (nextRevision disk memory newID) ()

theorem supersede_of_moved {oldDisk newDisk : Disk} {memory after : Memory Data}
    {oldID newID : String} (idNe : oldID ≠ newID) {strategy : V1.Strategy}
    (moved : transition codec oldDisk memory oldID "SUPERSEDED" = (.ok strategy, after)) :
    supersede codec oldDisk newDisk memory oldID newID = adopt codec newDisk after oldID newID := by
  rw [supersede]
  simp only [if_neg idNe, moved]
  rfl

theorem supersede_of_refused {oldDisk newDisk : Disk} {memory after : Memory Data}
    {oldID newID message : String} (idNe : oldID ≠ newID)
    (moved : transition codec oldDisk memory oldID "SUPERSEDED" = (.error message, after)) :
    supersede codec oldDisk newDisk memory oldID newID = (.error message, after) := by
  rw [supersede]
  simp only [if_neg idNe, moved]

/-- The second half is refused and leaves the store, or changes at most the record of the new
strategy's own id. -/
theorem adopt_outcome (lawful : codec.Lawful) (rereads : codec.Rereads) (discerns : codec.Discerns)
    (disk : Disk) {memory : Memory Data} (hashed : memory.store.Hashed codec) {oldID : String}
    (named : oldID ≠ "") (newID : String) :
    (Succeeds codec disk memory oldID newID ∧ ∃ next after,
        get codec disk.get memory newID = .ok next ∧
        adopt codec disk memory oldID newID = (.ok (), after) ∧
        (∀ path, path ≠ Layout.fileOf "strategy" next.id →
          after.store.files.lookup path = memory.store.files.lookup path) ∧
        after.store.Says codec next.id "supersedes" oldID) ∨
      (¬ Succeeds codec disk memory oldID newID ∧ ∃ message,
        adopt codec disk memory oldID newID = (.error message, memory)) := by
  rw [adopt]
  cases reads : get codec disk.get memory newID with
  | error message =>
      right
      exact ⟨by simp [Succeeds, reads], message, rfl⟩
  | ok next =>
      simp only
      rcases revise_outcome codec disk memory
          (pointed next oldID (nextRevision disk memory newID)) (nextRevision disk memory newID) ()
        with ⟨record, after, valid, built, takes, revised, isStore⟩ | ⟨finds, -, revised⟩ |
          ⟨notWritten, notFound, message, revised⟩
      · left
        refine ⟨⟨next, reads, .inl ⟨valid, record, built, takes⟩⟩, next, after, rfl, revised, ?_, ?_⟩
        · intro path elsewhere
          rcases says_of_newRecord lawful rereads rfl built with ⟨isKind, isId, -⟩
          rw [isStore, Store.lookup_written_ne]
          rwa [isKind, isId]
        · rcases says_of_newRecord lawful rereads rfl built with
            ⟨isKind, isId, storedEq, saysId, -, saysOld⟩
          refine ⟨record, ?_, saysId, saysOld named⟩
          have isThere := Store.lookup_written codec memory.store record
          rwa [isKind, isId, storedEq, ← isStore] at isThere
      · left
        refine ⟨⟨next, reads, .inr finds⟩, next, memory, rfl, revised, fun _ _ => rfl, ?_⟩
        rcases finds with ⟨-, record, built, valid, -, existing, found, sameHash⟩
        rcases says_of_newRecord lawful rereads rfl built with
          ⟨isKind, isId, -, saysId, -, saysOld⟩
        rw [isKind, isId] at found
        have sameData : codec.unmarshal record.data = codec.unmarshal existing.data := by
          refine discerns.unmarshal_eq (hash_of_validate valid) ?_
          rw [← sameHash]
          exact hashed _ existing found
        exact ⟨existing, found, saysId.of_unmarshal sameData, (saysOld named).of_unmarshal sameData⟩
      · right
        refine ⟨?_, message, revised⟩
        rintro ⟨other, isOther, writes | finds⟩
        · cases Except.ok.inj (reads.symm.trans isOther)
          exact notWritten writes
        · cases Except.ok.inj (reads.symm.trans isOther)
          exact notFound finds

/-! ## What a read depends on -/

theorem named_of_get {failure : Option String} {memory : Memory Data} {id : String}
    {strategy : V1.Strategy} (reads : get codec failure memory id = .ok strategy) : id ≠ "" := by
  rintro rfl
  have unnamed : ∃ message, Layout.recordPath "strategy" "" = .error message :=
    ⟨"id: is required", by decide⟩
  rcases unnamed with ⟨message, noPath⟩
  simp [get, getTyped, Store.getRecordOn, noPath] at reads

theorem getRecordOn_congr {store after : Store Data} {id : String}
    (same : after.files.lookup (Layout.fileOf "strategy" id) =
      store.files.lookup (Layout.fileOf "strategy" id)) (failure : Option String) :
    after.getRecordOn failure "strategy" id = store.getRecordOn failure "strategy" id := by
  rw [Store.getRecordOn, Store.getRecordOn]
  cases isPath : Layout.recordPath "strategy" id with
  | error message => rfl
  | ok path =>
      have isFile : path = Layout.fileOf "strategy" id := by
        simp only [Layout.recordPath] at isPath
        split at isPath
        · cases isPath
        · split at isPath
          · cases isPath
          · exact (Except.ok.inj isPath).symm
      subst isFile
      simp only [same]

theorem get_congr {memory after : Memory Data} {id : String}
    (same : after.store.files.lookup (Layout.fileOf "strategy" id) =
      memory.store.files.lookup (Layout.fileOf "strategy" id)) (failure : Option String) :
    get codec failure after id = get codec failure memory id := by
  simp only [get, getTyped, getRecordOn_congr same]

theorem nextRevision_congr {memory after : Memory Data} {id : String}
    (same : after.store.files.lookup (Layout.fileOf "strategy" id) =
      memory.store.files.lookup (Layout.fileOf "strategy" id)) (disk : Disk) :
    nextRevision disk after id = nextRevision disk memory id := by
  simp only [nextRevision, revisionOf, getRecordOn_congr same]

theorem writes_congr {store after : Store Data} {strategy : V1.Strategy}
    (same : after.files.lookup (Layout.fileOf "strategy" strategy.id) =
      store.files.lookup (Layout.fileOf "strategy" strategy.id)) (disk : Disk) (revision : ℤ) :
    Writes codec disk after strategy revision ↔ Writes codec disk store strategy revision := by
  refine and_congr_right fun _ => exists_congr fun record => and_congr_right fun built => ?_
  rcases newRecord_spec built with ⟨-, isKind, isId, -⟩
  rw [Store.Takes, Store.Takes, isKind, isId, same]

theorem finds_congr {store after : Store Data} {strategy : V1.Strategy}
    (same : after.files.lookup (Layout.fileOf "strategy" strategy.id) =
      store.files.lookup (Layout.fileOf "strategy" strategy.id)) (disk : Disk) (revision : ℤ) :
    Finds codec disk after strategy revision ↔ Finds codec disk store strategy revision := by
  refine and_congr_right fun _ => exists_congr fun record => and_congr_right fun built => ?_
  rcases newRecord_spec built with ⟨-, isKind, isId, -⟩
  rw [Store.Matches, Store.Matches, isKind, isId, same]

/-- Whether a strategy with its own id succeeds depends on its file alone. -/
theorem succeeds_congr {memory after : Memory Data} {newID : String} {disk : Disk}
    (same : after.store.files.lookup (Layout.fileOf "strategy" newID) =
      memory.store.files.lookup (Layout.fileOf "strategy" newID))
    (own : Own codec disk.get memory newID) (oldID : String) :
    Succeeds codec disk after oldID newID ↔ Succeeds codec disk memory oldID newID := by
  rw [Succeeds, Succeeds, get_congr same, nextRevision_congr same]
  refine exists_congr fun next => and_congr_right fun reads => ?_
  have isNew : next.id = newID := own next reads
  have sameFile : after.store.files.lookup (Layout.fileOf "strategy"
        (pointed next oldID (nextRevision disk memory newID)).id) =
      memory.store.files.lookup (Layout.fileOf "strategy"
        (pointed next oldID (nextRevision disk memory newID)).id) := by
    change after.store.files.lookup (Layout.fileOf "strategy" next.id) =
      memory.store.files.lookup (Layout.fileOf "strategy" next.id)
    rwa [isNew]
  rw [writes_congr sameFile, finds_congr sameFile]

/-! ## All or nothing, exactly -/

theorem own_iff {failure : Option String} {memory : Memory Data} {id : String}
    {strategy : V1.Strategy} (reads : get codec failure memory id = .ok strategy) :
    Own codec failure memory id ↔ strategy.id = id := by
  simp [Own, reads]

/-- A record that was read under an id and says that id has the id. -/
theorem own_of_named {failure : Option String} {memory : Memory Data} {id : String}
    {strategy : V1.Strategy} (reads : get codec failure memory id = .ok strategy)
    {name text : String} (saysText : memory.store.Says codec id name text) : strategy.id = id := by
  rcases Memory.says_of_get reads with ⟨record, found, saysId, -⟩
  rcases saysText with ⟨other, isOther, saysOther, -⟩
  cases Option.some.inj (found.symm.trans isOther)
  exact saysId.unique saysOther

theorem fileOf_ne {first second : String} (ne : first ≠ second) :
    Layout.fileOf "strategy" first ≠ Layout.fileOf "strategy" second :=
  fun same => ne (Store.fileOf_inj same)

section SecondHalf

variable {memory middle after : Memory Data} {oldID newID : String} {failure : Option String}
  {next : V1.Strategy}

/-- The second half supersedes only a strategy that is superseded before it, and only by a
strategy that has its own id. -/
theorem own_of_superseded (idNe : oldID ≠ newID) (reads : get codec failure middle newID = .ok next)
    (others : ∀ path, path ≠ Layout.fileOf "strategy" next.id →
      after.store.files.lookup path = middle.store.files.lookup path)
    (superseded : Superseded codec memory.store after.store oldID newID) :
    next.id = newID ∧ middle.store.Says codec oldID "lifecycle" "SUPERSEDED" := by
  have isNew : next.id = newID := by
    by_contra isOther
    have same := others _ (fileOf_ne fun same => isOther same.symm)
    exact isOther (own_of_named reads (superseded.new.of_lookup same.symm))
  have same := others (Layout.fileOf "strategy" oldID) (by rw [isNew]; exact fileOf_ne idNe)
  exact ⟨isNew, superseded.old.of_lookup same.symm⟩

/-- A strategy that has its own id supersedes one that is superseded. -/
theorem superseded_of_own (idNe : oldID ≠ newID)
    (others : ∀ path, path ≠ Layout.fileOf "strategy" newID →
      after.store.files.lookup path = middle.store.files.lookup path)
    (saysOld : after.store.Says codec newID "supersedes" oldID)
    (unchanged : ∀ path, path ≠ Layout.fileOf "strategy" oldID →
      middle.store.files.lookup path = memory.store.files.lookup path)
    (isOld : middle.store.Says codec oldID "lifecycle" "SUPERSEDED") :
    Superseded codec memory.store after.store oldID newID where
  old := isOld.of_lookup (others _ (fileOf_ne idNe))
  new := saysOld
  others := fun path notOld notNew => (others path notNew).trans (unchanged path notOld)

end SecondHalf

/-- A strategy that rests is superseded. -/
theorem superseded_of_rests (lawful : codec.Lawful) (rereads : codec.Rereads)
    (discerns : codec.Discerns) {disk : Disk} {memory : Memory Data}
    (hashed : memory.store.Hashed codec) {oldID : String} (rests : Rests codec disk memory oldID)
    (own : Own codec disk.get memory oldID) :
    memory.store.Says codec oldID "lifecycle" "SUPERSEDED" := by
  rcases rests with ⟨old, reads, already | ⟨-, -, record, built, valid, -, existing, found, sameHash⟩⟩
  · rcases Memory.says_of_get reads with ⟨record, found, saysId, saysLifecycle⟩
    rw [own old reads] at saysId
    rw [already] at saysLifecycle
    exact ⟨record, found, saysId, saysLifecycle⟩
  · rcases says_of_newRecord lawful rereads rfl built with ⟨isKind, isId, -, saysId, saysLifecycle, -⟩
    have isOld : (retired old (nextRevision disk memory oldID)).id = oldID := own old reads
    rw [isKind, isId, isOld] at found
    rw [isOld] at saysId
    have sameData : codec.unmarshal record.data = codec.unmarshal existing.data := by
      refine discerns.unmarshal_eq (hash_of_validate valid) ?_
      rw [← sameHash]
      exact hashed _ existing found
    exact ⟨existing, found, saysId.of_unmarshal sameData, saysLifecycle.of_unmarshal sameData⟩

theorem named_of_moved {disk : Disk} {memory : Memory Data} {oldID : String}
    (moved : Retires codec disk memory oldID ∨ Rests codec disk memory oldID) : oldID ≠ "" := by
  rcases moved with ⟨old, reads, -⟩ | ⟨old, reads, -⟩
  · exact named_of_get reads
  · exact named_of_get reads

theorem atomic_of_kept {memory : Memory Data} {oldID newID message : String} :
    Atomic codec memory oldID newID (.error message, memory) where
  failed := fun _ _ _ => rfl
  succeeded := fun succeeds => nomatch succeeds

theorem atomic_ok_iff {memory after : Memory Data} {oldID newID : String} :
    Atomic codec memory oldID newID (.ok (), after) ↔
      Superseded codec memory.store after.store oldID newID := by
  constructor
  · intro atomic
    exact atomic.succeeded rfl
  · intro superseded
    constructor
    · intro message fails
      cases fails
    · intro _
      exact superseded

/-- Where nothing is written for the old strategy, superseding is the second half alone. -/
theorem adopt_atomic_iff (lawful : codec.Lawful) (rereads : codec.Rereads)
    (discerns : codec.Discerns) {memory : Memory Data} (hashed : memory.store.Hashed codec)
    {oldDisk newDisk : Disk} {oldID newID : String} (idNe : oldID ≠ newID)
    (rests : Rests codec oldDisk memory oldID) :
    Atomic codec memory oldID newID (adopt codec newDisk memory oldID newID) ↔
      (Succeeds codec newDisk memory oldID newID → Own codec oldDisk.get memory oldID ∧
        Own codec newDisk.get memory newID) := by
  rcases adopt_outcome lawful rereads discerns newDisk hashed (named_of_moved (.inr rests)) newID with
    ⟨succeeds, next, after, reads, adopted, others, saysOld⟩ | ⟨fails, message, adopted⟩
  · rw [adopted, atomic_ok_iff]
    constructor
    · intro superseded _
      rcases own_of_superseded idNe reads others superseded with ⟨isNew, isOld⟩
      exact ⟨fun old readsOld => own_of_named readsOld isOld, (own_iff reads).mpr isNew⟩
    · intro safe
      rcases safe succeeds with ⟨ownOld, ownNew⟩
      rw [ownNew next reads] at others saysOld
      exact superseded_of_own idNe others saysOld (fun _ _ => rfl)
        (superseded_of_rests lawful rereads discerns hashed rests ownOld)
  · rw [adopted]
    exact iff_of_true atomic_of_kept fun succeeds => absurd succeeds fails

/-- Where the old strategy is written, what fails after it leaves the write behind. -/
theorem retired_atomic_iff (lawful : codec.Lawful) (rereads : codec.Rereads)
    (discerns : codec.Discerns) {memory after : Memory Data} (hashed : memory.store.Hashed codec)
    {oldDisk newDisk : Disk} {oldID newID : String} (idNe : oldID ≠ newID) {old : V1.Strategy}
    {record : Record Data} (readsOld : get codec oldDisk.get memory oldID = .ok old)
    (built : newRecord codec "strategy" old.id (nextRevision oldDisk memory oldID)
      (codec.marshal (retired old (nextRevision oldDisk memory oldID)).toJson) = .ok record)
    (takes : memory.store.Takes codec oldDisk record)
    (isStore : after.store = memory.store.written codec record) :
    Atomic codec memory oldID newID (adopt codec newDisk after oldID newID) ↔
      Succeeds codec newDisk memory oldID newID ∧ Own codec oldDisk.get memory oldID ∧
        Own codec newDisk.get memory newID := by
  have builtRetired : newRecord codec "strategy" (retired old (nextRevision oldDisk memory oldID)).id
      (nextRevision oldDisk memory oldID)
      (codec.marshal (retired old (nextRevision oldDisk memory oldID)).toJson) = .ok record := built
  rcases says_of_newRecord lawful rereads rfl builtRetired with
    ⟨isKind, isId, storedEq, saysId, saysLifecycle, -⟩
  have isOldId : record.id = old.id := isId
  have fileEq : Layout.fileOf record.kind record.id = Layout.fileOf "strategy" old.id := by
    rw [isKind, isOldId]
  have isThere : after.store.files.lookup (Layout.fileOf "strategy" old.id) = some record := by
    have written := Store.lookup_written codec memory.store record
    rwa [fileEq, storedEq, ← isStore] at written
  have elsewhere : ∀ path, path ≠ Layout.fileOf "strategy" old.id →
      after.store.files.lookup path = memory.store.files.lookup path := by
    intro path notOld
    rw [isStore, Store.lookup_written_ne]
    rwa [fileEq]
  have hashedAfter : after.store.Hashed codec := by
    rw [isStore]
    refine hashed.written ?_
    rw [storedEq]
    exact hash_of_validate takes.1
  rw [own_iff readsOld]
  rcases adopt_outcome lawful rereads discerns newDisk hashedAfter (named_of_get readsOld) newID with
    ⟨succeeds, next, final, reads, adopted, others, saysOld⟩ | ⟨fails, message, adopted⟩
  · rw [adopted, atomic_ok_iff]
    constructor
    · intro superseded
      rcases own_of_superseded idNe reads others superseded with ⟨isNew, isSuperseded⟩
      have isOld : old.id = oldID := by
        by_contra isOther
        have same := elsewhere _ (fileOf_ne fun same => isOther same.symm)
        exact isOther (own_of_named readsOld (isSuperseded.of_lookup same.symm))
      have sameNew := elsewhere (Layout.fileOf "strategy" newID)
        (by rw [isOld]; exact fileOf_ne idNe.symm)
      rw [get_congr sameNew] at reads
      have own : Own codec newDisk.get memory newID := (own_iff reads).mpr isNew
      exact ⟨(succeeds_congr sameNew own oldID).mp succeeds, isOld, own⟩
    · rintro ⟨-, rfl, own⟩
      have readsBefore := reads
      rw [get_congr (elsewhere _ (fileOf_ne idNe.symm))] at readsBefore
      rw [own next readsBefore] at others saysOld
      exact superseded_of_own idNe others saysOld elsewhere ⟨record, isThere, saysId, saysLifecycle⟩
  · rw [adopted]
    constructor
    · intro atomic
      have same := atomic.failed message rfl (Layout.fileOf "strategy" old.id)
      have changes := takes.changes
      rw [fileEq, ← isStore] at changes
      exact absurd same changes
    · rintro ⟨succeeds, isOld, own⟩
      have sameNew := elsewhere (Layout.fileOf "strategy" newID)
        (by rw [isOld]; exact fileOf_ne idNe.symm)
      exact absurd ((succeeds_congr sameNew own oldID).mpr succeeds) fails

/-- Superseding is all or nothing exactly if it is safe. -/
theorem atomic_iff_safe (lawful : codec.Lawful) (rereads : codec.Rereads)
    (discerns : codec.Discerns) {memory : Memory Data} (hashed : memory.store.Hashed codec)
    (oldDisk newDisk : Disk) (oldID newID : String) :
    Atomic codec memory oldID newID (supersede codec oldDisk newDisk memory oldID newID) ↔
      Safe codec oldDisk newDisk memory oldID newID := by
  by_cases idNe : oldID = newID
  · have refused : supersede codec oldDisk newDisk memory oldID newID =
        (.error "strategy: cannot supersede itself", memory) := by
      rw [supersede, if_pos idNe]
    rw [refused]
    exact iff_of_true atomic_of_kept (.inl idNe)
  · rcases transition_outcome codec oldDisk memory oldID with
      ⟨old, record, strategy, after, readsOld, built, takes, retires, moved, isStore⟩ |
        ⟨rests, notRetired, strategy, moved⟩ | ⟨notRetired, notRested, message, moved⟩
    · rw [supersede_of_moved idNe moved,
        retired_atomic_iff lawful rereads discerns hashed idNe readsOld built takes isStore]
      simp [Safe, idNe, retires]
    · rw [supersede_of_moved idNe moved,
        adopt_atomic_iff lawful rereads discerns hashed idNe rests]
      simp only [Safe, idNe, notRetired, rests, false_or, not_false_eq_true, true_and, not_true_eq_false]
      tauto
    · rw [supersede_of_refused idNe moved]
      exact iff_of_true atomic_of_kept (.inr (.inl ⟨notRetired, .inl notRested⟩))

end StrategyRepository

/-! ## Runs -/

namespace Memory

/-- The hashes of the records stay right under every call, a direct write included. -/
theorem step_hashed
    (compacted : ∀ data, codec.unmarshal (codec.compact data) = codec.unmarshal data)
    (memory : Memory Data) (op : Op Data) (hashed : memory.store.Hashed codec) :
    ((machine codec).step memory op).1.store.Hashed codec := by
  have sameHash : ∀ {record : Record Data}, record.validate codec = .ok () →
      codec.hashBytes (record.stored codec).data = .ok record.hash := by
    intro record valid
    have isHash := hash_of_validate valid
    rw [Codec.hashBytes, Codec.canonicalize] at isHash ⊢
    rwa [Record.stored, compacted]
  have moves_hashed : ∀ {before after : Memory Data}, Moves codec before after →
      before.store.Hashed codec → after.store.Hashed codec := by
    intro before after moves
    induction moves with
    | stays storeEq _ => exact fun hashed => by rwa [storeEq]
    | typed disk memory kind id revision value =>
        intro hashed
        rcases putTyped_cases codec disk memory kind id revision value with
          same | ⟨record, -, takes, isWritten⟩
        · rwa [same]
        · rw [isWritten]
          exact hashed.written (sameHash takes.1)
    | rebuilds failure memory => exact fun hashed => hashed
    | trans _ _ ihFirst ihSecond => exact fun hashed => ihSecond (ihFirst hashed)
  rcases step_moves codec memory op with ⟨disk, record, rfl⟩ | moves
  · change (memory.putRecord codec disk record).2.store.Hashed codec
    rw [putRecord_store]
    by_cases takes : memory.store.Takes codec disk record
    · rw [Store.putRecordOn_of_takes takes]
      exact hashed.written (sameHash takes.1)
    · rwa [(Store.putRecordOn_of_not_takes takes).1]
  · exact moves_hashed moves hashed

theorem run_hashed
    (compacted : ∀ data, codec.unmarshal (codec.compact data) = codec.unmarshal data)
    {memory : Memory Data} (hashed : memory.store.Hashed codec) (ops : List (Op Data)) :
    ((machine codec).run memory ops).store.Hashed codec :=
  Machine.run_invariant (step_hashed compacted) hashed

end Memory

/-! ## A strategy without a successor -/

namespace StrategyRepository

/-- The members of a strategy. -/
def strategyMembers (lifecycle : String) (revision : ℤ) : Json.Object :=
  [("contractVersion", .str "1.0"), ("guidance", .str "g"), ("id", .str "str_1"),
    ("kind", .str "strategy"), ("lifecycle", .str lifecycle), ("revision", .num revision),
    ("title", .str "old")]

def activeText : String :=
  "\x7b\"contractVersion\":\"1.0\",\"guidance\":\"g\",\"id\":\"str_1\",\"kind\":\"strategy\",\"lifecycle\":\"ACTIVE\",\"revision\":3,\"title\":\"old\"\x7d"

def retiredText : String :=
  "\x7b\"contractVersion\":\"1.0\",\"guidance\":\"g\",\"id\":\"str_1\",\"kind\":\"strategy\",\"lifecycle\":\"SUPERSEDED\",\"revision\":4,\"title\":\"old\"\x7d"

/-- A member that is a string or a number. -/
def shape (entry : String × Json) : String × Option (String ⊕ ℚ) :=
  (entry.1, match entry.2 with
    | .str text => some (.inl text)
    | .num number => some (.inr number)
    | _ => none)

/-- JSON and SHA-256 on the texts of the strategy as it is active and as it is superseded. -/
def strategyCodec : Codec String where
  unmarshal data :=
    if data = activeText then .ok (.obj (strategyMembers "ACTIVE" 3))
    else if data = retiredText then .ok (.obj (strategyMembers "SUPERSEDED" 4))
    else .error "unexpected end of JSON input"
  marshal
    | .obj entries =>
        if (entries.map shape).Perm ((strategyMembers "ACTIVE" 3).map shape) then activeText
        else if (entries.map shape).Perm ((strategyMembers "SUPERSEDED" 4).map shape) then
          retiredText
        else ""
    | _ => ""
  compact data := data
  sha256Hex data :=
    if data = activeText then "0719cdaaf9bdc103d2067ff303c48241a15ddb96df8ca90c0e82a94afadc52ae"
    else if data = retiredText then
      "72cc992f7e0112a1a18264cd86fb0697ece34cec8e8d304e1943a52c1a5e3c21"
    else ""

theorem strategyCodec_lawful : strategyCodec.Lawful := ⟨fun _ => rfl⟩

theorem eq_of_shape {first second : String × Json} (same : shape first = shape second)
    (isPlain : (shape second).2 ≠ none) : first = second := by
  rcases first with ⟨name, value⟩
  rcases second with ⟨other, otherValue⟩
  cases value <;> cases otherValue <;> simp_all [shape]

/-- Members with the shapes of a strategy are its members. -/
theorem strategyMembers_of_perm {written : Json.Object} {lifecycle : String} {revision : ℤ}
    (same : (written.map shape).Perm ((strategyMembers lifecycle revision).map shape)) :
    ((strategyMembers lifecycle revision).map Prod.fst).Perm (written.map Prod.fst) ∧
      ∀ entry ∈ written, entry ∈ strategyMembers lifecycle revision := by
  constructor
  · have names := (same.map Prod.fst).symm
    rwa [List.map_map, List.map_map] at names
  · intro entry isThere
    have isShape := same.subset (List.mem_map_of_mem isThere)
    rcases List.mem_map.mp isShape with ⟨member, isMember, isSame⟩
    have isPlain : (shape member).2 ≠ none := by
      simp only [strategyMembers, List.mem_cons, List.not_mem_nil, or_false] at isMember
      rcases isMember with rfl | rfl | rfl | rfl | rfl | rfl | rfl <;> simp [shape]
    rwa [eq_of_shape isSame.symm isPlain]

theorem retiredText_ne : retiredText ≠ activeText := by simp [retiredText, activeText]

theorem unmarshal_activeText :
    strategyCodec.unmarshal activeText = .ok (.obj (strategyMembers "ACTIVE" 3)) := by
  simp only [strategyCodec, if_true]

theorem unmarshal_retiredText :
    strategyCodec.unmarshal retiredText = .ok (.obj (strategyMembers "SUPERSEDED" 4)) := by
  simp only [strategyCodec, if_neg retiredText_ne, if_true]

/-- Only the two texts are read. -/
theorem eq_of_unmarshal {text : String} {value : Json}
    (reads : strategyCodec.unmarshal text = .ok value) :
    (text = activeText ∧ value = .obj (strategyMembers "ACTIVE" 3)) ∨
      (text = retiredText ∧ value = .obj (strategyMembers "SUPERSEDED" 4)) := by
  simp only [strategyCodec] at reads
  split_ifs at reads with isActive isRetired
  · exact .inl ⟨isActive, (Except.ok.inj reads).symm⟩
  · exact .inr ⟨isRetired, (Except.ok.inj reads).symm⟩

theorem marshal_active : strategyCodec.marshal (.obj (strategyMembers "ACTIVE" 3)) = activeText := by
  simp only [strategyCodec, List.Perm.refl, if_true]

theorem not_perm_active :
    ¬ ((strategyMembers "SUPERSEDED" 4).map shape).Perm ((strategyMembers "ACTIVE" 3).map shape) := by
  intro same
  have isThere : ("lifecycle", Json.str "SUPERSEDED") ∈ strategyMembers "ACTIVE" 3 :=
    (strategyMembers_of_perm same).2 _ (by simp [strategyMembers])
  simp [strategyMembers] at isThere

theorem marshal_retired :
    strategyCodec.marshal (.obj (strategyMembers "SUPERSEDED" 4)) = retiredText := by
  simp only [strategyCodec, if_neg not_perm_active, List.Perm.refl, if_true]

theorem strategyCodec_rereads : strategyCodec.Rereads := by
  constructor
  intro written value nodup reads
  have isMarshalled : (written.map shape).Perm ((strategyMembers "ACTIVE" 3).map shape) ∧
        value = .obj (strategyMembers "ACTIVE" 3) ∨
      (written.map shape).Perm ((strategyMembers "SUPERSEDED" 4).map shape) ∧
        value = .obj (strategyMembers "SUPERSEDED" 4) := by
    by_cases isActive : (written.map shape).Perm ((strategyMembers "ACTIVE" 3).map shape)
    · have text : strategyCodec.marshal (.obj written) = activeText := by
        simp only [strategyCodec, if_pos isActive]
      rw [text, unmarshal_activeText] at reads
      exact .inl ⟨isActive, (Except.ok.inj reads).symm⟩
    · by_cases isRetired : (written.map shape).Perm ((strategyMembers "SUPERSEDED" 4).map shape)
      · have text : strategyCodec.marshal (.obj written) = retiredText := by
          simp only [strategyCodec, if_neg isActive, if_pos isRetired]
        rw [text, unmarshal_retiredText] at reads
        exact .inr ⟨isRetired, (Except.ok.inj reads).symm⟩
      · have text : strategyCodec.marshal (.obj written) = "" := by
          simp only [strategyCodec, if_neg isActive, if_neg isRetired]
        rw [text] at reads
        rcases eq_of_unmarshal reads with ⟨isEmpty, -⟩ | ⟨isEmpty, -⟩
        · simp [activeText] at isEmpty
        · simp [retiredText] at isEmpty
  rcases isMarshalled with ⟨same, rfl⟩ | ⟨same, rfl⟩
  · rcases strategyMembers_of_perm same with ⟨names, kept⟩
    exact ⟨_, rfl, names, fun name text isThere => kept _ isThere,
      fun name number _ isThere => kept _ isThere⟩
  · rcases strategyMembers_of_perm same with ⟨names, kept⟩
    exact ⟨_, rfl, names, fun name text isThere => kept _ isThere,
      fun name number _ isThere => kept _ isThere⟩

theorem hash_ne : strategyCodec.sha256Hex activeText ≠ strategyCodec.sha256Hex retiredText := by
  simp [strategyCodec, retiredText_ne]

theorem strategyCodec_discerns : strategyCodec.Discerns := by
  constructor
  intro first second value other reads readsOther sameHash
  rcases eq_of_unmarshal reads with ⟨-, rfl⟩ | ⟨-, rfl⟩
  · rcases eq_of_unmarshal readsOther with ⟨-, rfl⟩ | ⟨-, rfl⟩
    · rfl
    · rw [marshal_active, marshal_retired] at sameHash
      exact absurd sameHash hash_ne
  · rcases eq_of_unmarshal readsOther with ⟨-, rfl⟩ | ⟨-, rfl⟩
    · rw [marshal_active, marshal_retired] at sameHash
      exact absurd sameHash.symm hash_ne
    · rfl

/-- The record of the strategy in a lifecycle. -/
def strategyRecord (revision : ℤ) (text : String) : Record String :=
  { kind := "strategy", id := "str_1", revision := revision, data := text
    hash := strategyCodec.sha256Hex text }

/-- A store of one strategy, which is active. -/
def activeOnly : Memory String :=
  { store :=
      { files := (∅ : GoMap String (Record String)).insert (Layout.fileOf "strategy" "str_1")
          (strategyRecord 3 activeText) }
    projection := {} }

theorem lookup_activeOnly : activeOnly.store.files.lookup (Layout.fileOf "strategy" "str_1") =
    some (strategyRecord 3 activeText) := AList.lookup_insert _

theorem activeOnly_hashed : activeOnly.store.Hashed strategyCodec := by
  intro path record found
  by_cases isPath : path = Layout.fileOf "strategy" "str_1"
  · subst isPath
    cases Option.some.inj (found.symm.trans lookup_activeOnly)
    simp only [Codec.hashBytes, Codec.canonicalize, strategyRecord, unmarshal_activeText,
      marshal_active, Except.map]
  · rw [activeOnly, AList.lookup_insert_ne isPath] at found
    cases found

/-- The other strategy is not there. -/
theorem get_missing : ∃ message, get strategyCodec none activeOnly "str_2" = .error message := by
  have path : Layout.recordPath "strategy" "str_2" = .ok (Layout.fileOf "strategy" "str_2") := by
    decide
  have missing : activeOnly.store.files.lookup (Layout.fileOf "strategy" "str_2") = none := by
    rw [activeOnly, AList.lookup_insert_ne (fileOf_ne (by decide))]
    rfl
  exact ⟨Store.notFound, by simp only [get, getTyped, Store.getRecordOn, path, missing]⟩

theorem missing_not_superseded :
    Atomic strategyCodec activeOnly "str_2" "str_1"
      (supersede strategyCodec {} {} activeOnly "str_2" "str_1") := by
  refine (atomic_iff_safe strategyCodec_lawful strategyCodec_rereads strategyCodec_discerns
    activeOnly_hashed {} {} "str_2" "str_1").mpr ?_
  rcases get_missing with ⟨message, missing⟩
  refine .inr (.inl ⟨?_, .inl ?_⟩)
  · rintro ⟨old, reads, -⟩
    cases missing.symm.trans reads
  · rintro ⟨old, reads, -⟩
    cases missing.symm.trans reads

def activeStrategy : V1.Strategy :=
  { contractVersion := "1.0", kind := "strategy", id := "str_1", revision := some 3
    title := "old", lifecycle := "ACTIVE", guidance := "g" }

theorem get_active : get strategyCodec none activeOnly "str_1" = .ok activeStrategy := by
  have path : Layout.recordPath "strategy" "str_1" = .ok (Layout.fileOf "strategy" "str_1") := by
    decide
  have isInt : GoJson.int (.num 3) 0 = .ok 3 := by decide
  have asPointer : ∀ old, GoJson.pointer 0 GoJson.int (.num 3) old = .ok (some 3) := by
    intro old
    simp only [GoJson.pointer, isInt, Except.map]
  have sorted : (strategyMembers "ACTIVE" 3).insertionSort (fun left right => left.1 ≤ right.1) =
      strategyMembers "ACTIVE" 3 := by
    simp [strategyMembers, List.insertionSort]
  have decodes : V1.decodeStrategy (.obj (strategyMembers "ACTIVE" 3)) {} = .ok activeStrategy := by
    simp only [V1.decodeStrategy, GoJson.struct]
    rw [sorted]
    simp [strategyMembers, V1.envelopeFields, V1.stringField, GoJson.field, GoJson.fieldFor,
      List.lookup, asPointer, GoJson.string, Except.map, bind, Except.bind, pure, Except.pure,
      activeStrategy]
  simp only [get, getTyped, Store.getRecordOn, path, lookup_activeOnly, strategyRecord,
    unmarshal_activeText, Except.bind, decodes]

/-- The members of the strategy as it is superseded, in the order they are written in. -/
def retiredMembers : Json.Object :=
  [("contractVersion", .str "1.0"), ("kind", .str "strategy"), ("id", .str "str_1"),
    ("revision", .num (4 : ℤ)), ("title", .str "old"), ("lifecycle", .str "SUPERSEDED"),
    ("guidance", .str "g")]

/-- An active strategy is superseded by one that is not there, and stays so. -/
theorem missing_successor :
    ¬ Atomic strategyCodec activeOnly "str_1" "str_2"
      (supersede strategyCodec {} {} activeOnly "str_1" "str_2") := by
  have isNext : nextRevision {} activeOnly "str_1" = 4 := by
    have path : Layout.recordPath "strategy" "str_1" = .ok (Layout.fileOf "strategy" "str_1") := by
      decide
    simp [nextRevision, revisionOf, Store.getRecordOn, path, lookup_activeOnly, strategyRecord]
  have isWritten : strategyCodec.marshal (retired activeStrategy 4).toJson = retiredText := by
    have members : (retired activeStrategy 4).toJson = .obj retiredMembers := rfl
    have same : (retiredMembers.map shape).Perm ((strategyMembers "SUPERSEDED" 4).map shape) := by
      decide
    have other : ¬ (retiredMembers.map shape).Perm ((strategyMembers "ACTIVE" 3).map shape) :=
      fun active => not_perm_active (same.symm.trans active)
    simp only [members, strategyCodec, if_neg other, if_pos same]
  have valid : (retired activeStrategy 4).validate = .ok () := by decide
  have built : newRecord strategyCodec "strategy" "str_1" 4
      (strategyCodec.marshal (retired activeStrategy 4).toJson) =
      .ok (strategyRecord 4 retiredText) := by
    have kindOk : V1.requireIdentifier "kind" "strategy" = .ok () := by decide
    have idOk : V1.requireIdentifier "id" "str_1" = .ok () := by decide
    simp [newRecord, kindOk, idOk, isWritten, Codec.canonicalize, Codec.hashBytes,
      unmarshal_retiredText, marshal_retired, Except.map, strategyRecord]
  have takes : activeOnly.store.Takes strategyCodec {} (strategyRecord 4 retiredText) := by
    refine ⟨?_, rfl, rfl, ?_⟩
    · have kindOk : V1.requireIdentifier "kind" "strategy" = .ok () := by decide
      have idOk : V1.requireIdentifier "id" "str_1" = .ok () := by decide
      simp [Record.validate, strategyRecord, kindOk, idOk, Codec.hashBytes, Codec.canonicalize,
        unmarshal_retiredText, marshal_retired, Except.map]
    · intro existing found
      cases Option.some.inj (found.symm.trans lookup_activeOnly)
      simp only [strategyRecord]
      exact ⟨hash_ne, by decide⟩
  have retires : Retires strategyCodec {} activeOnly "str_1" := by
    refine ⟨activeStrategy, get_active, rfl, ?_⟩
    rw [isNext]
    refine ⟨valid, strategyRecord 4 retiredText, ?_, takes⟩
    exact built
  rcases get_missing with ⟨missed, missing⟩
  rcases transition_outcome strategyCodec {} activeOnly "str_1" with
    ⟨old, record, strategy, after, readsOld, isBuilt, isTaken, -, moved, isStore⟩ |
      ⟨-, notRetired, -⟩ | ⟨notRetired, -⟩
  · rw [supersede_of_moved (by decide) moved, retired_atomic_iff strategyCodec_lawful
      strategyCodec_rereads strategyCodec_discerns activeOnly_hashed (by decide)
      readsOld isBuilt isTaken isStore]
    rintro ⟨⟨next, reads, -⟩, -⟩
    cases missing.symm.trans reads
  · exact absurd retires notRetired
  · exact absurd retires notRetired

end StrategyRepository

end Aa.Memory
