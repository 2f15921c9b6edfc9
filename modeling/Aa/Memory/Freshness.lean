import Aa.Memory.Facade

/-!
# Freshness of the projection

Every call of the facade and its repositories keeps the projection equal to a rebuild of
it, except a direct write of a record: that one changes the store and leaves the
projection as it was.
-/

set_option linter.dupNamespace false

namespace Aa.Memory

open Aa.Library Aa.Contracts

variable {Data : Type} {codec : Codec Data}

/-- What `encoding/json` does with text it has written itself: compacting it changes
nothing. -/
structure Codec.Lawful (codec : Codec Data) : Prop where
  compact_marshal : ∀ value, codec.compact (codec.marshal value) = codec.marshal value

/-- A record that is built is identified, and its data is written, as is what is hashed. -/
theorem newRecord_spec {kind id : String} {revision : ℤ} {data : Data} {record : Record Data}
    (built : newRecord codec kind id revision data = .ok record) :
    record.Identified ∧ record.kind = kind ∧ record.id = id ∧ record.revision = revision ∧
      ∃ value hashed, codec.unmarshal data = .ok value ∧ record.data = codec.marshal value ∧
        codec.unmarshal record.data = .ok hashed := by
  rw [newRecord] at built
  cases kindOk : V1.requireIdentifier "kind" kind with
  | error message => simp [kindOk] at built
  | ok =>
      cases idOk : V1.requireIdentifier "id" id with
      | error message => simp [kindOk, idOk] at built
      | ok =>
          simp only [kindOk, idOk] at built
          split at built
          · simp at built
          · cases unmarshalled : codec.unmarshal data with
            | error message => simp [Codec.canonicalize, unmarshalled] at built
            | ok value =>
                cases again : codec.unmarshal (codec.marshal value) with
                | error message =>
                    simp [Codec.canonicalize, Codec.hashBytes, unmarshalled, again,
                      Except.map] at built
                | ok hashed =>
                    simp only [Codec.canonicalize, Codec.hashBytes, unmarshalled, again, Except.map]
                      at built
                    cases Except.ok.inj built
                    exact ⟨⟨kindOk, idOk⟩, rfl, rfl, rfl, value, hashed, rfl, rfl, again⟩

namespace Store

/-- The store takes a record: the record is valid, the disk does not fail, and a record
that it would replace has other content and a lower revision. -/
def Takes (codec : Codec Data) (disk : Disk) (store : Store Data) (record : Record Data) : Prop :=
  record.validate codec = .ok () ∧ disk.existing = none ∧ disk.write = none ∧
    ∀ existing ∈ store.files.lookup (Layout.fileOf record.kind record.id),
      existing.hash ≠ record.hash ∧ existing.revision < record.revision

/-- The store with a record written. -/
def written (codec : Codec Data) (store : Store Data) (record : Record Data) : Store Data :=
  { files := store.files.insert (Layout.fileOf record.kind record.id) (record.stored codec) }

/-- A record the store takes is written. -/
theorem putRecordOn_of_takes {disk : Disk} {store : Store Data} {record : Record Data}
    (takes : store.Takes codec disk record) :
    store.putRecordOn codec disk record = (.ok true, store.written codec record) := by
  rcases takes with ⟨valid, readable, writable, replaces⟩
  have path : Layout.recordPath record.kind record.id = .ok (Layout.fileOf record.kind record.id) :=
    recordPath_of_valid valid
  simp only [putRecordOn, valid, path, readable, writable]
  cases held : store.files.lookup (Layout.fileOf record.kind record.id) with
  | none => rfl
  | some existing =>
      rcases replaces existing held with ⟨other, lower⟩
      simp [other, not_le.mpr lower, written]

/-- A record the store does not take leaves it as it is. -/
theorem putRecordOn_of_not_takes {disk : Disk} {store : Store Data} {record : Record Data}
    (kept : ¬ store.Takes codec disk record) :
    (store.putRecordOn codec disk record).2 = store ∧
      (store.putRecordOn codec disk record).1 ≠ .ok true := by
  cases valid : record.validate codec with
  | error message => simp [putRecordOn, valid]
  | ok =>
      have path : Layout.recordPath record.kind record.id =
          .ok (Layout.fileOf record.kind record.id) := recordPath_of_valid valid
      cases readable : disk.existing with
      | some message => simp [putRecordOn, valid, path, readable]
      | none =>
          cases writable : disk.write with
          | some message =>
              simp only [putRecordOn, valid, path, readable, writable]
              split
              · split
                · simp
                · split <;> simp
              · simp
          | none =>
              cases held : store.files.lookup (Layout.fileOf record.kind record.id) with
              | none => exact absurd ⟨valid, readable, writable, by simp [held]⟩ kept
              | some existing =>
                  by_cases same : existing.hash = record.hash
                  · simp [putRecordOn, valid, path, readable, held, same]
                  · have stale : record.revision ≤ existing.revision := by
                      by_contra newer
                      refine kept ⟨valid, readable, writable, ?_⟩
                      intro other isHeld
                      cases Option.some.inj (held.symm.trans isHeld)
                      exact ⟨same, not_le.mp newer⟩
                    simp [putRecordOn, valid, path, readable, held, same, stale]

theorem Keyed.written {store : Store Data} (keyed : store.Keyed) {record : Record Data}
    (identified : record.Identified) : (store.written codec record).Keyed := by
  intro path held found
  by_cases isPath : path = Layout.fileOf record.kind record.id
  · subst isPath
    rw [Store.written, AList.lookup_insert] at found
    cases Option.some.inj found
    exact ⟨identified, rfl⟩
  · rw [Store.written, AList.lookup_insert_ne isPath] at found
    exact keyed path held found

/-- After a write a store holds the new record and the others. -/
theorem mem_written {store : Store Data} (keyed : store.Keyed) {record other : Record Data}
    (identified : record.Identified) :
    other ∈ (store.written codec record).records ↔
      other = record.stored codec ∨
        (other ∈ store.records ∧ key other.kind other.id ≠ key record.kind record.id) := by
  constructor
  · intro isThere
    have isKeyed : (store.written codec record).Keyed := keyed.written identified
    rcases isKeyed.mem_records isThere with ⟨isOne, found⟩
    by_cases sameKey : key other.kind other.id = key record.kind record.id
    · left
      rcases isOne.eq_of_key identified sameKey with ⟨kindEq, idEq⟩
      rw [Store.written, kindEq, idEq, AList.lookup_insert] at found
      exact (Option.some.inj found).symm
    · right
      refine ⟨Store.mem_records.mpr ⟨Layout.fileOf other.kind other.id, ?_⟩, sameKey⟩
      rwa [Store.written, AList.lookup_insert_ne] at found
      intro samePath
      rcases isOne.eq_of_fileOf identified samePath with ⟨kindEq, idEq⟩
      exact sameKey (by rw [kindEq, idEq])
  · rintro (rfl | ⟨isThere, keyNe⟩)
    · exact Store.mem_records.mpr
        ⟨Layout.fileOf record.kind record.id, by rw [Store.written, AList.lookup_insert]⟩
    · rcases keyed.mem_records isThere with ⟨_, found⟩
      refine Store.mem_records.mpr ⟨Layout.fileOf other.kind other.id, ?_⟩
      rw [Store.written, AList.lookup_insert_ne, found]
      intro samePath
      rcases (keyed.mem_records isThere).1.eq_of_fileOf identified samePath with ⟨kindEq, idEq⟩
      exact keyNe (by rw [kindEq, idEq])

end Store

namespace Memory

/-- The projection is the one a fresh rebuild from the canonical records produces. -/
def Fresh (memory : Memory Data) : Prop :=
  memory.projection.Same (({} : MemProjection Data).rebuild memory.store none).2

theorem fresh_iff_shows {memory : Memory Data} (keyed : memory.store.Keyed) :
    memory.Fresh ↔ memory.projection.Shows memory.store.records := by
  have rebuilt := (MemProjection.rebuild_shows keyed {}).2
  constructor
  · intro fresh
    exact rebuilt.of_same fresh.symm
  · intro shows
    exact shows.same rebuilt

/-! ## Typed writes -/

variable (codec) in
/-- A typed write leaves the memory as it is, or writes one record and shows it. -/
theorem putTyped_cases (disk : Disk) (memory : Memory Data) (kind id : String) (revision : ℤ)
    (value : Json) :
    (putTyped codec disk memory kind id revision value).2 = memory ∨
      ∃ record : Record Data, newRecord codec kind id revision (codec.marshal value) = .ok record ∧
        memory.store.Takes codec disk record ∧
        (putTyped codec disk memory kind id revision value).2 =
          { memory with
            store := memory.store.written codec record
            projection := (memory.projection.put (fromRecord record)).2 } := by
  rw [putTyped]
  cases built : newRecord codec kind id revision (codec.marshal value) with
  | error message => exact .inl rfl
  | ok record =>
      by_cases takes : memory.store.Takes codec disk record
      · right
        refine ⟨record, rfl, takes, ?_⟩
        simp only [Store.putRecordOn_of_takes takes]
      · left
        rcases Store.putRecordOn_of_not_takes takes with ⟨storeEq, notWritten⟩
        cases outcome : memory.store.putRecordOn codec disk record with
        | mk answer store =>
            rw [outcome] at storeEq notWritten
            cases storeEq
            rcases answer with message | flag
            · simp only [outcome]
            · cases flag with
              | false => simp only [outcome]
              | true => simp at notWritten

/-- Writing a record the store takes and putting it keeps the projection fresh. -/
theorem shows_written (lawful : codec.Lawful) {store : Store Data} (keyed : store.Keyed)
    {projection : MemProjection Data} (shows : projection.Shows store.records) {disk : Disk}
    {record : Record Data} (identified : record.Identified)
    (canonical : ∃ value, record.data = codec.marshal value)
    (takes : store.Takes codec disk record) :
    (projection.put (fromRecord record)).2.Shows (store.written codec record).records := by
  have storedEq : record.stored codec = record := by
    rcases canonical with ⟨value, isMarshalled⟩
    cases record
    simp only at isMarshalled
    simp [Record.stored, isMarshalled, lawful.compact_marshal]
  have inserted : (projection.put (fromRecord record)).2.entries =
      projection.entries.insert (key record.kind record.id) (fromRecord record) := by
    cases held : projection.get record.kind record.id with
    | none => rw [MemProjection.put_of_absent identified.nonempty held]; rfl
    | some entry =>
        rcases (shows _ _).mp held with ⟨existing, isThere, sameKey, rfl⟩
        rcases keyed.mem_records isThere with ⟨existingIdentified, found⟩
        rcases identified.eq_of_key existingIdentified sameKey with ⟨kindEq, idEq⟩
        rw [← kindEq, ← idEq] at found
        rcases takes.2.2.2 existing found with ⟨other, lower⟩
        rw [MemProjection.put_of_held identified.nonempty held other lower.le]
        rfl
  intro name entry
  rw [inserted]
  by_cases isKey : name = key record.kind record.id
  · subst isKey
    rw [AList.lookup_insert]
    constructor
    · intro isEntry
      exact ⟨record, (Store.mem_written keyed identified).mpr (.inl storedEq.symm), rfl,
        (Option.some.inj isEntry).symm⟩
    · rintro ⟨other, isThere, sameKey, rfl⟩
      rcases (Store.mem_written keyed identified).mp isThere with isStored | ⟨_, keyNe⟩
      · rw [isStored, storedEq]
      · exact absurd sameKey.symm keyNe
  · rw [AList.lookup_insert_ne isKey, shows name entry]
    constructor
    · rintro ⟨other, isThere, isName, isEntry⟩
      refine ⟨other, (Store.mem_written keyed identified).mpr (.inr ⟨isThere, ?_⟩), isName, isEntry⟩
      exact fun sameKey => isKey (isName.trans sameKey)
    · rintro ⟨other, isThere, isName, isEntry⟩
      rcases (Store.mem_written keyed identified).mp isThere with isStored | ⟨isOld, _⟩
      · rw [isStored, storedEq] at isName
        exact absurd isName isKey
      · exact ⟨other, isOld, isName, isEntry⟩

/-- Writing a record the store takes and not putting it leaves the projection stale. -/
theorem not_shows_written {store : Store Data} (keyed : store.Keyed)
    {projection : MemProjection Data} (shows : projection.Shows store.records) {disk : Disk}
    {record : Record Data} (takes : store.Takes codec disk record) :
    ¬ projection.Shows (store.written codec record).records := by
  intro showsWritten
  have identified : record.Identified := Record.identifiers_of_validate takes.1
  have shown : projection.get record.kind record.id = some (fromRecord (record.stored codec)) :=
    (showsWritten _ _).mpr ⟨record.stored codec, (Store.mem_written keyed identified).mpr (.inl rfl),
      rfl, rfl⟩
  rcases (shows _ _).mp shown with ⟨existing, isThere, sameKey, sameEntry⟩
  rcases keyed.mem_records isThere with ⟨existingIdentified, found⟩
  rcases identified.eq_of_key existingIdentified sameKey with ⟨kindEq, idEq⟩
  rw [← kindEq, ← idEq] at found
  exact (takes.2.2.2 existing found).1 (congrArg Entry.hash sameEntry).symm

/-! ## The moves of the facade -/

/-- How a call other than a direct write moves the store and the projection: by typed
writes and rebuilds. -/
inductive Moves (codec : Codec Data) : Memory Data → Memory Data → Prop
  | stays {memory after : Memory Data} (storeEq : after.store = memory.store)
      (projectionEq : after.projection = memory.projection) : Moves codec memory after
  | typed (disk : Disk) (memory : Memory Data) (kind id : String) (revision : ℤ) (value : Json) :
      Moves codec memory (putTyped codec disk memory kind id revision value).2
  | rebuilds (failure : Option String) (memory : Memory Data) :
      Moves codec memory (memory.rebuild failure).2
  | trans {memory middle after : Memory Data} (first : Moves codec memory middle)
      (second : Moves codec middle after) : Moves codec memory after

theorem Moves.refl (memory : Memory Data) : Moves codec memory memory := .stays rfl rfl

theorem Moves.keyed {memory after : Memory Data} (moves : Moves codec memory after)
    (keyed : memory.store.Keyed) : after.store.Keyed := by
  induction moves with
  | stays storeEq _ => rwa [storeEq]
  | typed disk memory kind id revision value =>
      rcases putTyped_cases codec disk memory kind id revision value with
        same | ⟨record, built, _, isWritten⟩
      · rwa [same]
      · rw [isWritten]
        exact keyed.written (newRecord_spec built).1
  | rebuilds failure memory => exact keyed
  | trans _ _ ihFirst ihSecond => exact ihSecond (ihFirst keyed)

theorem Moves.fresh (lawful : codec.Lawful) {memory after : Memory Data}
    (moves : Moves codec memory after) (keyed : memory.store.Keyed) (fresh : memory.Fresh) :
    after.Fresh := by
  induction moves with
  | stays storeEq projectionEq => rwa [Fresh, storeEq, projectionEq]
  | typed disk memory kind id revision value =>
      rcases putTyped_cases codec disk memory kind id revision value with
        same | ⟨record, built, takes, isWritten⟩
      · rwa [same]
      · rcases newRecord_spec built with ⟨identified, -, -, -, written, -, -, isMarshalled, -⟩
        rw [isWritten]
        refine (fresh_iff_shows (keyed.written identified)).mpr ?_
        exact shows_written lawful keyed ((fresh_iff_shows keyed).mp fresh) identified
          ⟨written, isMarshalled⟩ takes
  | rebuilds failure memory =>
      cases failure with
      | some message => exact fresh
      | none =>
          intro name
          rfl
  | trans first _ ihFirst ihSecond => exact ihSecond (first.keyed keyed) (ihFirst keyed fresh)

theorem Moves.of_putTyped {disk : Disk} {memory after : Memory Data} {kind id : String}
    {revision : ℤ} {value : Json} {outcome : Except String Bool}
    (wrote : putTyped codec disk memory kind id revision value = (outcome, after)) :
    Moves codec memory after := by
  have moves : Moves codec memory (putTyped codec disk memory kind id revision value).2 :=
    .typed disk memory kind id revision value
  rwa [wrote] at moves

theorem moves_create (disk : Disk) (memory : Memory Data) (newID : String) (issue : V1.Issue) :
    Moves codec memory (IssueRepository.create codec disk memory newID issue).2 := by
  simp only [IssueRepository.create]
  split
  · exact .refl memory
  · split
    · rename_i wrote
      exact .of_putTyped wrote
    · rename_i wrote
      exact .of_putTyped wrote

theorem moves_setStatus (disk : Disk) (memory : Memory Data) (id status : String) :
    Moves codec memory (IssueRepository.setStatus codec disk memory id status).2 := by
  simp only [IssueRepository.setStatus]
  split
  · exact .refl memory
  · split
    · exact .refl memory
    · split
      · exact .refl memory
      · split
        · exact .refl memory
        · split
          · rename_i wrote
            exact .of_putTyped wrote
          · rename_i wrote
            exact .of_putTyped wrote

theorem moves_propose (disk : Disk) (memory : Memory Data) (newID : String)
    (strategy : V1.Strategy) :
    Moves codec memory (StrategyRepository.propose codec disk memory newID strategy).2 := by
  simp only [StrategyRepository.propose]
  generalize (if strategy.contractVersion = "" then V1.Version else strategy.contractVersion) =
    version
  generalize (if strategy.id = "" then newID else strategy.id) = id
  generalize (if strategy.lifecycle = "" then "CANDIDATE" else strategy.lifecycle) = lifecycle
  split
  · exact .refl memory
  · split
    · exact .refl memory
    · split
      · rename_i wrote
        exact .of_putTyped wrote
      · rename_i wrote
        exact .of_putTyped wrote

variable (codec) in
theorem moves_transition (disk : Disk) (memory : Memory Data) (id target : String) :
    Moves codec memory (StrategyRepository.transition codec disk memory id target).2 := by
  simp only [StrategyRepository.transition]
  split
  · exact .refl memory
  · split
    · exact .refl memory
    · split
      · exact .refl memory
      · split
        · exact .refl memory
        · split
          · rename_i wrote
            exact .of_putTyped wrote
          · rename_i wrote
            exact .of_putTyped wrote

theorem moves_supersede (oldDisk newDisk : Disk) (memory : Memory Data) (oldID newID : String) :
    Moves codec memory
      (StrategyRepository.supersede codec oldDisk newDisk memory oldID newID).2 := by
  simp only [StrategyRepository.supersede]
  split
  · exact .refl memory
  · have first := moves_transition codec oldDisk memory oldID "SUPERSEDED"
    split
    · rename_i moved
      rwa [moved] at first
    · rename_i moved
      rw [moved] at first
      split
      · exact first
      · split
        · exact first
        · split
          · rename_i wrote
            exact first.trans (.of_putTyped wrote)
          · rename_i wrote
            exact first.trans (.of_putTyped wrote)

theorem moves_initProject (disk : Disk) (memory : Memory Data) (manifest : Data) :
    Moves codec memory (memory.initProject codec disk manifest).2 := by
  simp only [initProject]
  split
  · exact .refl memory
  · split
    · exact .refl memory
    · exact .refl memory
    · exact .stays rfl rfl

/-! ## Runs -/

/-- The call is a direct write that the store takes. -/
def WritesDirectly (codec : Codec Data) (memory : Memory Data) : Op Data → Prop
  | .putRecord disk record => memory.store.Takes codec disk record
  | _ => False

theorem putRecord_store (disk : Disk) (memory : Memory Data) (record : Record Data) :
    (memory.putRecord codec disk record).2.store =
      (memory.store.putRecordOn codec disk record).2 := rfl

theorem putRecord_projection (disk : Disk) (memory : Memory Data) (record : Record Data) :
    (memory.putRecord codec disk record).2.projection = memory.projection := rfl

/-- A direct write keeps the projection fresh exactly when the store does not take it. -/
theorem putRecord_fresh_iff (disk : Disk) {memory : Memory Data} (keyed : memory.store.Keyed)
    (fresh : memory.Fresh) (record : Record Data) :
    (memory.putRecord codec disk record).2.Fresh ↔ ¬ memory.store.Takes codec disk record := by
  by_cases takes : memory.store.Takes codec disk record
  · have identified : record.Identified := Record.identifiers_of_validate takes.1
    have storeEq : (memory.putRecord codec disk record).2.store =
        memory.store.written codec record := by
      rw [putRecord_store, Store.putRecordOn_of_takes takes]
    refine iff_of_false ?_ (fun notTaken => notTaken takes)
    intro freshAfter
    refine not_shows_written keyed ((fresh_iff_shows keyed).mp fresh) takes ?_
    rw [← storeEq]
    exact (fresh_iff_shows (storeEq ▸ keyed.written identified)).mp freshAfter
  · have kept := (Store.putRecordOn_of_not_takes takes).1
    refine iff_of_true ?_ takes
    rwa [Fresh, putRecord_store, putRecord_projection, kept]

theorem putRecord_keyed (disk : Disk) {memory : Memory Data} (keyed : memory.store.Keyed)
    (record : Record Data) : (memory.putRecord codec disk record).2.store.Keyed := by
  by_cases takes : memory.store.Takes codec disk record
  · rw [putRecord_store, Store.putRecordOn_of_takes takes]
    exact keyed.written (Record.identifiers_of_validate takes.1)
  · rwa [putRecord_store, (Store.putRecordOn_of_not_takes takes).1]

variable (codec) in
/-- Every call but a direct write moves by typed writes and rebuilds. -/
theorem step_moves (memory : Memory Data) (op : Op Data) :
    (∃ disk record, op = .putRecord disk record) ∨ Moves codec memory (step codec memory op).1 := by
  cases op with
  | putRecord disk record => exact .inl ⟨disk, record, rfl⟩
  | createIssue disk newID issue => exact .inr (moves_create disk memory newID issue)
  | getIssue failure id => exact .inr (.refl memory)
  | listIssues failure => exact .inr (.refl memory)
  | setStatus disk id status => exact .inr (moves_setStatus disk memory id status)
  | propose disk newID strategy => exact .inr (moves_propose disk memory newID strategy)
  | getStrategy failure id => exact .inr (.refl memory)
  | listStrategies failure => exact .inr (.refl memory)
  | listActive failure => exact .inr (.refl memory)
  | transition disk id target => exact .inr (moves_transition codec disk memory id target)
  | supersede oldDisk newDisk oldID newID =>
      exact .inr (moves_supersede oldDisk newDisk memory oldID newID)
  | initProject disk manifest => exact .inr (moves_initProject disk memory manifest)
  | appendEvent disk event => exact .inr (.stays rfl rfl)
  | rebuild failure => exact .inr (.rebuilds failure memory)

theorem step_keyed (memory : Memory Data) (op : Op Data) (keyed : memory.store.Keyed) :
    ((machine codec).step memory op).1.store.Keyed := by
  rcases step_moves codec memory op with ⟨disk, record, rfl⟩ | moves
  · exact putRecord_keyed disk keyed record
  · exact moves.keyed keyed

theorem step_fresh_iff (lawful : codec.Lawful) (memory : Memory Data) (op : Op Data)
    (keyed : memory.store.Keyed) (fresh : memory.Fresh) :
    ((machine codec).step memory op).1.Fresh ↔ ¬ memory.WritesDirectly codec op := by
  rcases step_moves codec memory op with ⟨disk, record, rfl⟩ | moves
  · exact putRecord_fresh_iff disk keyed fresh record
  · cases op with
    | putRecord disk record => exact putRecord_fresh_iff disk keyed fresh record
    | _ => exact iff_of_true (moves.fresh lawful keyed fresh) (fun direct => direct)

theorem openAt_spec {failure : Option String} {store : Store Data} {manifest : Option Data}
    {lines : List Data} {memory : Memory Data}
    (opened : openAt failure store manifest lines = .ok memory) :
    memory.store = store ∧ memory.Fresh := by
  rw [openAt] at opened
  cases failure with
  | some message => simp [rebuild, MemProjection.rebuild] at opened
  | none =>
      simp only [rebuild] at opened
      split at opened
      · simp at opened
      · rename_i rebuilt
        cases Except.ok.inj opened
        cases (Prod.mk.inj rebuilt).2
        exact ⟨rfl, fun name => rfl⟩

/-- From a memory opened over the files of a store, the projection is fresh in every state
of a run exactly when no call of the run writes a record directly. -/
theorem fresh_throughout_iff (lawful : codec.Lawful) {failure : Option String} {store : Store Data}
    (keyed : store.Keyed) {manifest : Option Data} {lines : List Data} {memory : Memory Data}
    (opened : openAt failure store manifest lines = .ok memory) (ops : List (Op Data)) :
    (∀ count, ((machine codec).run memory (ops.take count)).Fresh) ↔
      ∀ step ∈ (machine codec).steps memory ops, ¬ step.before.WritesDirectly codec step.input := by
  rcases openAt_spec opened with ⟨storeEq, fresh⟩
  have keeps_iff : ∀ (memory : Memory Data) (op : Op Data), memory.store.Keyed → memory.Fresh →
      (((machine codec).step memory op).1.Fresh ↔ ¬ memory.WritesDirectly codec op) :=
    fun memory op keyed fresh => step_fresh_iff lawful memory op keyed fresh
  exact Machine.forall_take_iff step_keyed keeps_iff (by rwa [storeEq]) fresh

/-! ## Examples -/

/-- A memory opened over an empty directory. -/
def emptyMemory : Memory String := { store := {}, projection := {} }

theorem emptyMemory_keyed : emptyMemory.store.Keyed := by
  intro path record found
  simp [emptyMemory] at found

theorem emptyMemory_opened : openAt none {} none [] = .ok emptyMemory := by
  simp [openAt, rebuild, MemProjection.rebuild, MemProjection.reset, MemProjection.putEach,
    Store.listAllRecords, emptyMemory]

/-- A record written directly is not shown. -/
theorem direct_write_stale :
    ¬ ∀ count, ((machine titleCodec).run emptyMemory
      ([.putRecord {} (titleA 1)].take count)).Fresh := by
  intro fresh
  have takes : emptyMemory.store.Takes titleCodec {} (titleA 1) :=
    ⟨by decide, rfl, rfl, fun existing found => nomatch found⟩
  have freshAfter : (emptyMemory.putRecord titleCodec {} (titleA 1)).2.Fresh := fresh 1
  exact (putRecord_fresh_iff {} emptyMemory_keyed (fresh 0) (titleA 1)).mp freshAfter takes

/-- The text of an issue as it is stored. -/
def bugText : String :=
  "\x7b\"contractVersion\":\"1.0\",\"id\":\"iss_1\",\"kind\":\"issue\",\"revision\":1,\"status\":\"open\",\"title\":\"x\",\"type\":\"bug\"\x7d"

/-- JSON and SHA-256 on that text. -/
def bugCodec : Codec String where
  unmarshal data :=
    if data = bugText then
      .ok (.obj [("contractVersion", .str "1.0"), ("id", .str "iss_1"), ("kind", .str "issue"),
        ("revision", .num 1), ("status", .str "open"), ("title", .str "x"), ("type", .str "bug")])
    else .error "unexpected end of JSON input"
  marshal
    | .obj _ => bugText
    | _ => "null"
  compact data := data
  sha256Hex data :=
    if data = bugText then "85ce85e01a0e777d2719fe200f26df222f4adc5fb5fcb54a16994e0cf37a0854"
    else ""

/-- An issue is created, its record is written directly as it was created, and the
projection is rebuilt. -/
def bugCalls : List (Op String) :=
  [.createIssue {} "iss_0" { id := "iss_1", title := "x", type := "bug" },
    .putRecord {}
      { kind := "issue", id := "iss_1", revision := 1, data := bugText
        hash := "85ce85e01a0e777d2719fe200f26df222f4adc5fb5fcb54a16994e0cf37a0854" },
    .rebuild none]

theorem bugCalls_fresh : (List.range 4).Forall fun count =>
    ((machine bugCodec).run emptyMemory (bugCalls.take count)).Fresh := by
  refine List.forall_iff_forall_mem.mpr fun count _ => ?_
  refine (fresh_throughout_iff ⟨fun _ => rfl⟩ emptyMemory_keyed emptyMemory_opened bugCalls).mpr
    ?_ count
  intro step stepMem
  simp only [bugCalls, Machine.steps_cons, Machine.steps_nil] at stepMem
  rcases List.mem_cons.mp stepMem with rfl | later
  · exact fun direct => direct
  · rcases List.mem_cons.mp later with rfl | last
    · intro direct
      exact (direct.2.2.2 _ (by rfl)).1 (by rfl)
    · cases List.mem_singleton.mp last
      exact fun direct => direct

end Memory

end Aa.Memory
