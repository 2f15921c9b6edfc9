import Aa.Library.Double
import Aa.Memory.Freshness

/-!
# The history of strategies and issues

Through the repositories a record goes on by one revision at a time, a strategy along the
promotion graph, and the data of a record tells its revision. The last holds as long as the
revision is a number a double holds exactly: canonicalizing the data reads its numbers as
doubles.
-/

set_option linter.dupNamespace false

namespace Aa.Memory

open Aa.Library Aa.Contracts

variable {Data : Type} {codec : Codec Data}

/-- Up to here, 2 ^ 53, every integer is a double. -/
def exactBound : ℤ := 9007199254740992

/-- What `encoding/json` reads from an object it has written: the same members, strings as they
were and integers too, up to the bound. -/
structure Codec.Rereads (codec : Codec Data) : Prop where
  entries : ∀ {written : Json.Object} {value : Json}, (written.map Prod.fst).Nodup →
    codec.unmarshal (codec.marshal (.obj written)) = .ok value →
    ∃ read, value = .obj read ∧ (read.map Prod.fst).Perm (written.map Prod.fst) ∧
      (∀ name text, (name, .str text) ∈ written → (name, .str text) ∈ read) ∧
      ∀ (name : String) (number : ℤ), |number| ≤ exactBound →
        (name, .num number) ∈ written → (name, .num number) ∈ read

/-! ## What a record tells -/

/-- The key under which an object of a kind holds its state. -/
def stateKey (kind : String) : String := if kind = "strategy" then "lifecycle" else "status"

/-- The names of the members of an object of a kind. -/
def memberNames (kind : String) : List String :=
  if kind = "strategy" then V1.Strategy.names else V1.Issue.names

namespace Record

variable (codec) in
/-- A member of the data of a record. -/
def member (record : Record Data) (name : String) : Option Json :=
  match codec.unmarshal record.data with
  | .ok (.obj entries) => entries.lookup name
  | _ => none

variable (codec) in
/-- The lifecycle in the data of a strategy record. -/
def lifecycle (record : Record Data) : Option String :=
  (record.member codec "lifecycle").bind Json.asString

variable (codec) in
/-- The data of a record tells the id and the revision of the record, and a state. -/
def Tells (record : Record Data) (state : String) : Prop :=
  ∃ entries, codec.unmarshal record.data = .ok (.obj entries) ∧
    V1.Tells (memberNames record.kind) (stateKey record.kind) entries record.id state
      record.revision

/-- Under a name there is the one entry of the name. -/
theorem lookup_of_mem {entries : Json.Object} {name : String} {value : Json}
    (nodup : (entries.map Prod.fst).Nodup) (isThere : (name, value) ∈ entries) :
    entries.lookup name = some value := by
  induction entries with
  | nil => cases isThere
  | cons entry rest ih =>
      rcases List.nodup_cons.mp nodup with ⟨isNew, restNodup⟩
      rcases List.mem_cons.mp isThere with rfl | isLater
      · simp
      · have nameNe : name ≠ entry.1 := by
          rintro rfl
          exact isNew (List.mem_map.mpr ⟨_, isLater, rfl⟩)
        rw [List.lookup_cons, beq_eq_false_iff_ne.mpr nameNe]
        exact ih restNodup isLater

theorem Tells.revision {record : Record Data} {state : String} (tells : record.Tells codec state) :
    record.member codec "revision" = some (.num record.revision) := by
  rcases tells with ⟨entries, unmarshalled, told⟩
  rw [member, unmarshalled]
  exact lookup_of_mem told.nodup told.revision

theorem Tells.lifecycle_eq {record : Record Data} {state : String} (tells : record.Tells codec state)
    (isStrategy : record.kind = "strategy") : record.lifecycle codec = some state := by
  rcases tells with ⟨entries, unmarshalled, told⟩
  have isThere := told.state
  rw [stateKey, if_pos isStrategy] at isThere
  rw [Record.lifecycle, member, unmarshalled]
  simp only [lookup_of_mem told.nodup isThere, Option.bind_some, Json.asString]

end Record

/-- What is written of an object that tells something is read back telling the same. -/
theorem Codec.Rereads.tells (rereads : codec.Rereads) {written : Json.Object} {value : Json}
    {names : List String} {key id state : String} {revision : ℤ}
    (told : V1.Tells names key written id state revision) (small : |revision| ≤ exactBound)
    (reads : codec.unmarshal (codec.marshal (.obj written)) = .ok value) :
    ∃ read, value = .obj read ∧ V1.Tells names key read id state revision := by
  rcases rereads.entries told.nodup reads with ⟨read, isObject, sameKeys, strings, integers⟩
  exact ⟨read, isObject,
    { nodup := sameKeys.nodup_iff.mpr told.nodup
      known := fun name isKey => told.known (sameKeys.mem_iff.mp isKey)
      id := strings _ _ told.id
      state := strings _ _ told.state
      revision := integers _ _ small told.revision }⟩

/-- A record built from an object that tells something tells it, and is stored as it is. -/
theorem newRecord_tells (lawful : codec.Lawful) (rereads : codec.Rereads) {kind id state : String}
    {revision : ℤ} {written : Json.Object} {record : Record Data}
    (told : V1.Tells (memberNames kind) (stateKey kind) written id state revision)
    (small : |revision| ≤ exactBound)
    (built : newRecord codec kind id revision (codec.marshal (.obj written)) = .ok record) :
    record.Tells codec state ∧ record.stored codec = record := by
  rcases newRecord_spec built with
    ⟨-, rfl, rfl, rfl, value, hashed, unmarshalled, isMarshalled, again⟩
  rcases rereads.tells told small unmarshalled with ⟨read, rfl, toldRead⟩
  constructor
  · rw [isMarshalled] at again
    rcases rereads.tells toldRead small again with ⟨reread, rfl, toldReread⟩
    exact ⟨reread, by rw [isMarshalled]; exact again, toldReread⟩
  · cases record
    simp only at isMarshalled
    simp [Record.stored, isMarshalled, lawful.compact_marshal]

/-! ## One change of a record -/

/-- A strategy keeps its lifecycle or goes along an edge of the promotion graph. -/
def Promoted (source target : Option String) : Prop :=
  target = source ∨ ∃ before after, source = some before ∧ target = some after ∧
    after ∈ transitions before

variable (codec) in
/-- What may happen to what is stored at a path. -/
inductive Change : Option (Record Data) → Option (Record Data) → Prop
  | kept (held : Option (Record Data)) : Change held held
  | created {record : Record Data} (first : record.revision = 1)
      (candidate : record.kind = "strategy" → record.lifecycle codec = some "CANDIDATE") :
      Change none (some record)
  | raised {old new : Record Data} (next : new.revision = old.revision + 1)
      (promoted : new.kind = "strategy" → Promoted (old.lifecycle codec) (new.lifecycle codec)) :
      Change (some old) (some new)

variable (codec) in
/-- What a store of strategies and issues keeps: the files lie where their records say, and each
tells its identity, its revision from 1 on, and a state. -/
structure Kept (store : Store Data) : Prop where
  keyed : store.Keyed
  told : ∀ path record, store.files.lookup path = some record →
    1 ≤ record.revision ∧ ∃ state, record.Tells codec state

variable (codec) in
/-- The store goes on by one change of the record of a kind and id, or not at all. -/
def Advance (store after : Store Data) (kind id : String) : Prop :=
  after = store ∨ ∃ record state, record.kind = kind ∧ record.id = id ∧ record.Identified ∧
    1 ≤ record.revision ∧ record.Tells codec state ∧
    Change codec (store.files.lookup (Layout.fileOf kind id)) (some record) ∧
    after = { files := store.files.insert (Layout.fileOf kind id) record }

namespace Advance

variable {store after : Store Data} {kind id : String}

theorem refl (store : Store Data) : Advance codec store store kind id := .inl rfl

/-- The store of a write whose outcome is passed on. -/
theorem of_putTyped {disk : Disk} {memory next : Memory Data} {name key : String} {revision : ℤ}
    {value : Json} {outcome : Except String Bool}
    (advance : Advance codec store (putTyped codec disk memory name key revision value).2.store kind
      id)
    (wrote : putTyped codec disk memory name key revision value = (outcome, next)) :
    Advance codec store next.store kind id := by
  rwa [wrote] at advance

theorem lookup_elsewhere (advance : Advance codec store after kind id) {path : String}
    (elsewhere : path ≠ Layout.fileOf kind id) :
    after.files.lookup path = store.files.lookup path := by
  rcases advance with rfl | ⟨record, state, -, -, -, -, -, -, rfl⟩
  · rfl
  · exact AList.lookup_insert_ne elsewhere

theorem change (advance : Advance codec store after kind id) (path : String) :
    Change codec (store.files.lookup path) (after.files.lookup path) := by
  by_cases isPath : path = Layout.fileOf kind id
  · subst isPath
    rcases advance with rfl | ⟨record, state, -, -, -, -, -, changes, rfl⟩
    · exact .kept _
    · rwa [AList.lookup_insert]
  · rw [advance.lookup_elsewhere isPath]
    exact .kept _

theorem kept (advance : Advance codec store after kind id) (kept : Kept codec store) :
    Kept codec after := by
  rcases advance with rfl | ⟨record, state, rfl, rfl, identified, positive, tells, -, rfl⟩
  · exact kept
  · constructor
    · intro path held found
      by_cases isPath : path = Layout.fileOf record.kind record.id
      · subst isPath
        rw [AList.lookup_insert] at found
        cases Option.some.inj found
        exact ⟨identified, rfl⟩
      · rw [AList.lookup_insert_ne isPath] at found
        exact kept.keyed path held found
    · intro path held found
      by_cases isPath : path = Layout.fileOf record.kind record.id
      · subst isPath
        rw [AList.lookup_insert] at found
        cases Option.some.inj found
        exact ⟨positive, state, tells⟩
      · rw [AList.lookup_insert_ne isPath] at found
        exact kept.told path held found

end Advance

/-! ## The typed reads and writes -/

namespace Store

variable {store : Store Data} {kind id : String}

/-- The file of a kind and id holds the record of that kind and id. -/
theorem Keyed.of_fileOf (keyed : store.Keyed) (solid : '/' ∉ kind.toList) {record : Record Data}
    (found : store.files.lookup (Layout.fileOf kind id) = some record) :
    record.kind = kind ∧ record.id = id := by
  rcases keyed _ record found with ⟨identified, samePath⟩
  have stems : record.kind ++ String.ofList ['/'] ++ record.id = kind ++ String.ofList ['/'] ++ id :=
    (String.append_left_inj _).mp samePath.symm
  exact Go.append_separator_inj identified.kind_solid.1 solid stems

theorem getRecordOn_spec {failure : Option String} {record : Record Data}
    (reads : store.getRecordOn failure kind id = .ok record) :
    store.files.lookup (Layout.fileOf kind id) = some record := by
  rw [getRecordOn] at reads
  split at reads
  · cases reads
  · rename_i path isPath
    split at reads
    · cases reads
    · split at reads
      · rename_i found
        cases reads
        rw [Layout.recordPath] at isPath
        split at isPath
        · cases isPath
        · split at isPath
          · cases isPath
          · cases isPath
            exact found
      · cases reads

/-- The record of a kind and id, if there is one, has a revision below the bound. -/
def BelowAt (store : Store Data) (kind id : String) : Prop :=
  ∀ record, store.files.lookup (Layout.fileOf kind id) = some record → record.revision < exactBound

/-- Every record has a revision below the bound. -/
def Below (store : Store Data) : Prop := ∀ record ∈ store.records, record.revision < exactBound

theorem Below.at (below : store.Below) (kind id : String) : store.BelowAt kind id :=
  fun record found => below record (mem_records.mpr ⟨_, found⟩)

theorem fileOf_inj {other : String} (samePath : Layout.fileOf kind id = Layout.fileOf kind other) :
    id = other :=
  (String.append_right_inj _).mp ((String.append_left_inj _).mp samePath)

end Store

namespace Memory

variable {memory : Memory Data} {kind id : String}

theorem getTyped_spec {α : Type} {decode : GoJson.Decoder α} {zero object : α}
    {failure : Option String}
    (reads : getTyped codec decode zero failure memory kind id = .ok object) :
    ∃ record value, memory.store.files.lookup (Layout.fileOf kind id) = some record ∧
      codec.unmarshal record.data = .ok value ∧ decode value zero = .ok object := by
  rw [getTyped] at reads
  split at reads
  · cases reads
  · rename_i record isRead
    rcases GoJson.ok_of_bind reads with ⟨value, unmarshalled, decodes⟩
    exact ⟨record, value, Store.getRecordOn_spec isRead, unmarshalled, decodes⟩

/-- The revision of a record is that of the record, or 0 where it cannot be read. -/
theorem revisionOf_cases (failure : Option String) {existing : Record Data}
    (found : memory.store.files.lookup (Layout.fileOf kind id) = some existing) :
    revisionOf failure memory kind id = 0 ∨
      revisionOf failure memory kind id = existing.revision := by
  rw [revisionOf]
  split
  · exact .inl rfl
  · rename_i record reads
    cases Option.some.inj (found.symm.trans (Store.getRecordOn_spec reads))
    exact .inr rfl

/-- A typed write of an object that tells its identity, a state and its revision is one change of
its record, if it is one where it replaces a lower revision. -/
theorem putTyped_advance (lawful : codec.Lawful) (rereads : codec.Rereads) (disk : Disk)
    {state : String} {revision : ℤ} {written : Json.Object}
    (told : V1.Tells (memberNames kind) (stateKey kind) written id state revision)
    (positive : 1 ≤ revision) (small : revision ≤ exactBound)
    (changes : ∀ record : Record Data, record.kind = kind → record.revision = revision →
      record.Tells codec state →
      (∀ existing ∈ memory.store.files.lookup (Layout.fileOf kind id),
        existing.revision < revision) →
      Change codec (memory.store.files.lookup (Layout.fileOf kind id)) (some record)) :
    Advance codec memory.store (putTyped codec disk memory kind id revision (.obj written)).2.store
      kind id := by
  rcases putTyped_cases codec disk memory kind id revision (.obj written) with
    same | ⟨record, built, takes, isWritten⟩
  · rw [same]
    exact .inl rfl
  · have inBound : |revision| ≤ exactBound := abs_le.mpr ⟨by omega, small⟩
    rcases newRecord_tells lawful rereads told inBound built with ⟨tells, storedEq⟩
    rcases newRecord_spec built with ⟨identified, rfl, rfl, rfl, -⟩
    rw [isWritten, Store.written, storedEq]
    refine .inr ⟨record, state, rfl, rfl, identified, positive, tells, ?_, rfl⟩
    exact changes record rfl rfl tells fun existing found => (takes.2.2.2 existing found).2

/-- A first version is written only where there is no record. -/
theorem putTyped_first (lawful : codec.Lawful) (rereads : codec.Rereads) (disk : Disk)
    (kept : Kept codec memory.store) {state : String} {written : Json.Object}
    (told : V1.Tells (memberNames kind) (stateKey kind) written id state 1)
    (candidate : kind = "strategy" → state = "CANDIDATE") :
    Advance codec memory.store (putTyped codec disk memory kind id 1 (.obj written)).2.store
      kind id := by
  refine putTyped_advance lawful rereads disk told le_rfl (by decide) ?_
  rintro record rfl isFirst tells lower
  cases found : memory.store.files.lookup (Layout.fileOf record.kind id) with
  | some existing =>
      have positive := (kept.told _ existing found).1
      have replaced := lower existing found
      omega
  | none =>
      refine .created isFirst fun isStrategy => ?_
      rw [tells.lifecycle_eq isStrategy, candidate isStrategy]

/-- A later version follows the record it is made from. -/
theorem putTyped_next (lawful : codec.Lawful) (rereads : codec.Rereads) (disk : Disk)
    (failure : Option String) (kept : Kept codec memory.store)
    (below : memory.store.BelowAt kind id) {existing : Record Data}
    (found : memory.store.files.lookup (Layout.fileOf kind id) = some existing) {state : String}
    {written : Json.Object}
    (told : V1.Tells (memberNames kind) (stateKey kind) written id state
      (revisionOf failure memory kind id + 1))
    (promoted : kind = "strategy" → Promoted (existing.lifecycle codec) (some state)) :
    Advance codec memory.store
      (putTyped codec disk memory kind id (revisionOf failure memory kind id + 1)
        (.obj written)).2.store kind id := by
  have positive := (kept.told _ existing found).1
  have isBelow := below existing found
  have isRevision := revisionOf_cases failure found
  refine putTyped_advance lawful rereads disk told (by omega) (by omega) ?_
  rintro record rfl isNext tells lower
  have replaced := lower existing found
  rw [found]
  refine .raised (by omega) fun isStrategy => ?_
  rw [tells.lifecycle_eq isStrategy]
  exact promoted isStrategy

/-! ## The operations of the repositories -/

/-- An issue that is read is the one its record tells. -/
theorem getIssue_spec (kept : Kept codec memory.store) {failure : Option String} {issue : V1.Issue}
    (reads : IssueRepository.get codec failure memory id = .ok issue) :
    issue.id = id ∧
      ∃ existing, memory.store.files.lookup (Layout.fileOf "issue" id) = some existing := by
  rcases getTyped_spec reads with ⟨existing, value, found, unmarshalled, decodes⟩
  rcases kept.keyed.of_fileOf (by decide) found with ⟨isIssue, rfl⟩
  rcases (kept.told _ existing found).2 with ⟨state, entries, isObject, told⟩
  rw [isIssue] at told
  cases Except.ok.inj (unmarshalled.symm.trans isObject)
  exact ⟨(V1.decodeIssue_tells told decodes).1, existing, found⟩

/-- A strategy that is read is the one its record tells. -/
theorem getStrategy_spec (kept : Kept codec memory.store) {failure : Option String}
    {strategy : V1.Strategy}
    (reads : StrategyRepository.get codec failure memory id = .ok strategy) :
    strategy.id = id ∧ ∃ existing,
      memory.store.files.lookup (Layout.fileOf "strategy" id) = some existing ∧
        existing.lifecycle codec = some strategy.lifecycle := by
  rcases getTyped_spec reads with ⟨existing, value, found, unmarshalled, decodes⟩
  rcases kept.keyed.of_fileOf (by decide) found with ⟨isStrategy, rfl⟩
  rcases (kept.told _ existing found).2 with ⟨state, tells⟩
  have isState := tells.lifecycle_eq isStrategy
  rcases tells with ⟨entries, isObject, told⟩
  rw [isStrategy] at told
  cases Except.ok.inj (unmarshalled.symm.trans isObject)
  rcases V1.decodeStrategy_tells told decodes with ⟨sameId, sameState⟩
  exact ⟨sameId, existing, found, by rw [isState, sameState]⟩

theorem notStrategy : "issue" ≠ "strategy" := by decide

theorem create_advance (lawful : codec.Lawful) (rereads : codec.Rereads)
    (kept : Kept codec memory.store) (disk : Disk) (newID : String) (issue : V1.Issue) :
    ∃ id, Advance codec memory.store
      (IssueRepository.create codec disk memory newID issue).2.store "issue" id := by
  have writes : ∀ (first : V1.Issue) (id : String), first.id = id → first.revision = some 1 →
      Advance codec memory.store (putTyped codec disk memory "issue" id 1 first.toJson).2.store
        "issue" id := by
    rintro first id rfl hasRevision
    rcases V1.Issue.toJson_tells hasRevision with ⟨entries, isObject, told⟩
    rw [isObject]
    exact putTyped_first lawful rereads disk kept told notStrategy.elim
  simp only [IssueRepository.create]
  generalize (if issue.contractVersion = "" then V1.Version else issue.contractVersion) = version
  generalize (if issue.id = "" then newID else issue.id) = id
  generalize (if issue.status = "" then "open" else issue.status) = status
  refine ⟨id, ?_⟩
  split
  · exact .refl _
  · split
    · rename_i wrote
      exact (writes _ id rfl rfl).of_putTyped wrote
    · rename_i wrote
      exact (writes _ id rfl rfl).of_putTyped wrote

theorem setStatus_advance (lawful : codec.Lawful) (rereads : codec.Rereads)
    (kept : Kept codec memory.store) (disk : Disk) (id status : String)
    (below : memory.store.BelowAt "issue" id) :
    Advance codec memory.store (IssueRepository.setStatus codec disk memory id status).2.store
      "issue" id := by
  simp only [IssueRepository.setStatus]
  split
  · exact .refl _
  · rename_i issue reads
    rcases getIssue_spec kept reads with ⟨rfl, existing, found⟩
    have writes : ∀ next : V1.Issue, next.id = issue.id →
        next.revision = some (revisionOf disk.revision memory "issue" issue.id + 1) →
        Advance codec memory.store (putTyped codec disk memory "issue" issue.id
          (revisionOf disk.revision memory "issue" issue.id + 1) next.toJson).2.store
          "issue" issue.id := by
      intro next sameId hasRevision
      rcases V1.Issue.toJson_tells hasRevision with ⟨entries, isObject, told⟩
      rw [isObject]
      rw [sameId] at told
      exact putTyped_next lawful rereads disk disk.revision kept below found told notStrategy.elim
    split
    · exact .refl _
    · split
      · exact .refl _
      · split
        · exact .refl _
        · split
          · rename_i wrote
            exact (writes _ (by rfl) (by rfl)).of_putTyped wrote
          · rename_i wrote
            exact (writes _ (by rfl) (by rfl)).of_putTyped wrote

theorem propose_advance (lawful : codec.Lawful) (rereads : codec.Rereads)
    (kept : Kept codec memory.store) (disk : Disk) (newID : String) (strategy : V1.Strategy) :
    ∃ id, Advance codec memory.store
      (StrategyRepository.propose codec disk memory newID strategy).2.store "strategy" id := by
  have writes : ∀ (first : V1.Strategy) (id : String), first.id = id →
      first.lifecycle = "CANDIDATE" → first.revision = some 1 →
      Advance codec memory.store (putTyped codec disk memory "strategy" id 1 first.toJson).2.store
        "strategy" id := by
    rintro first id rfl isCandidate hasRevision
    rcases V1.Strategy.toJson_tells hasRevision with ⟨entries, isObject, told⟩
    rw [isObject]
    exact putTyped_first lawful rereads disk kept told fun _ => isCandidate
  simp only [StrategyRepository.propose]
  generalize (if strategy.contractVersion = "" then V1.Version else strategy.contractVersion) =
    version
  generalize (if strategy.id = "" then newID else strategy.id) = id
  generalize (if strategy.lifecycle = "" then "CANDIDATE" else strategy.lifecycle) = lifecycle
  refine ⟨id, ?_⟩
  split
  · exact .refl _
  · rename_i isCandidate
    split
    · exact .refl _
    · split
      · rename_i wrote
        exact (writes _ id rfl (not_not.mp isCandidate) rfl).of_putTyped wrote
      · rename_i wrote
        exact (writes _ id rfl (not_not.mp isCandidate) rfl).of_putTyped wrote

/-- A later version of a strategy that is read goes on from its record. -/
theorem putStrategy_next (lawful : codec.Lawful) (rereads : codec.Rereads)
    (kept : Kept codec memory.store) (below : memory.store.BelowAt "strategy" id) {disk : Disk}
    {strategy next : V1.Strategy}
    (reads : StrategyRepository.get codec disk.get memory id = .ok strategy)
    (sameId : next.id = strategy.id)
    (hasRevision : next.revision = some (revisionOf disk.revision memory "strategy" id + 1))
    {target : String} (isTarget : next.lifecycle = target)
    (promoted : Promoted (some strategy.lifecycle) (some target)) :
    Advance codec memory.store (putTyped codec disk memory "strategy" strategy.id
      (revisionOf disk.revision memory "strategy" id + 1) next.toJson).2.store "strategy" id := by
  rcases getStrategy_spec kept reads with ⟨isId, existing, found, isState⟩
  rcases V1.Strategy.toJson_tells hasRevision with ⟨entries, isObject, told⟩
  rw [isObject, isId]
  rw [sameId, isId, isTarget] at told
  refine putTyped_next lawful rereads disk disk.revision kept below found told fun _ => ?_
  rwa [isState]

theorem transition_advance (lawful : codec.Lawful) (rereads : codec.Rereads)
    (kept : Kept codec memory.store) (disk : Disk) (id target : String)
    (below : memory.store.BelowAt "strategy" id) :
    Advance codec memory.store (StrategyRepository.transition codec disk memory id target).2.store
      "strategy" id := by
  simp only [StrategyRepository.transition]
  split
  · exact .refl _
  · rename_i strategy reads
    split
    · exact .refl _
    · rename_i permitted
      have isEdge : strategy.lifecycle = target ∨ target ∈ transitions strategy.lifecycle := by
        rw [checkTransition] at permitted
        split at permitted
        · exact .inl ‹_›
        · split at permitted
          · exact .inr ‹_›
          · cases permitted
      have promoted : Promoted (some strategy.lifecycle) (some target) := by
        rcases isEdge with rfl | isEdge
        · exact .inl rfl
        · exact .inr ⟨_, _, rfl, rfl, isEdge⟩
      split
      · exact .refl _
      · split
        · exact .refl _
        · split
          · rename_i wrote
            exact (putStrategy_next lawful rereads kept below reads (by rfl) (by rfl) (by rfl)
              promoted).of_putTyped wrote
          · rename_i wrote
            exact (putStrategy_next lawful rereads kept below reads (by rfl) (by rfl) (by rfl)
              promoted).of_putTyped wrote

end Memory

/-! ## Steps -/

variable (codec) in
/-- A store goes on by one change, or by a change of one record and then one of another. -/
def Goes (store after : Store Data) : Prop :=
  (∃ kind id, Advance codec store after kind id) ∨
    ∃ middle kind first second, first ≠ second ∧ Advance codec store middle kind first ∧
      Advance codec middle after kind second

namespace Goes

variable {store after : Store Data}

theorem refl (store : Store Data) : Goes codec store store := .inl ⟨"", "", .refl store⟩

theorem change (goes : Goes codec store after) (path : String) :
    Change codec (store.files.lookup path) (after.files.lookup path) := by
  rcases goes with ⟨kind, id, advance⟩ | ⟨middle, kind, first, second, idNe, advance, further⟩
  · exact advance.change path
  · by_cases isSecond : path = Layout.fileOf kind second
    · have notFirst : path ≠ Layout.fileOf kind first := by
        rintro rfl
        exact idNe (Store.fileOf_inj isSecond)
      rw [← advance.lookup_elsewhere notFirst]
      exact further.change path
    · rw [further.lookup_elsewhere isSecond]
      exact advance.change path

theorem kept (goes : Goes codec store after) (kept : Kept codec store) : Kept codec after := by
  rcases goes with ⟨kind, id, advance⟩ | ⟨middle, kind, first, second, idNe, advance, further⟩
  · exact advance.kept kept
  · exact further.kept (advance.kept kept)

end Goes

namespace Memory

variable {memory : Memory Data}

theorem supersede_goes (lawful : codec.Lawful) (rereads : codec.Rereads)
    (kept : Kept codec memory.store) (below : memory.store.Below) (oldDisk newDisk : Disk)
    (oldID newID : String) :
    Goes codec memory.store
      (StrategyRepository.supersede codec oldDisk newDisk memory oldID newID).2.store := by
  simp only [StrategyRepository.supersede]
  split
  · exact .refl _
  · rename_i idNe
    have advance := transition_advance lawful rereads kept oldDisk oldID "SUPERSEDED"
      (below.at "strategy" oldID)
    split
    · rename_i moved
      rw [moved] at advance
      exact .inl ⟨_, _, advance⟩
    · rename_i middle moved
      rw [moved] at advance
      have belowNew : middle.store.BelowAt "strategy" newID := by
        intro record found
        rw [advance.lookup_elsewhere fun same => idNe (Store.fileOf_inj same).symm] at found
        exact below.at "strategy" newID record found
      split
      · exact .inl ⟨_, _, advance⟩
      · rename_i next reads
        split
        · exact .inl ⟨_, _, advance⟩
        · split
          · rename_i wrote
            exact .inr ⟨_, _, _, _, idNe, advance,
              (putStrategy_next lawful rereads (advance.kept kept) belowNew reads (by rfl) (by rfl)
                (by rfl) (.inl rfl)).of_putTyped wrote⟩
          · rename_i wrote
            exact .inr ⟨_, _, _, _, idNe, advance,
              (putStrategy_next lawful rereads (advance.kept kept) belowNew reads (by rfl) (by rfl)
                (by rfl) (.inl rfl)).of_putTyped wrote⟩

/-- The call goes through a repository, or does not write a record. -/
def Op.ThroughRepositories : Op Data → Prop
  | .putRecord _ _ => False
  | _ => True

theorem step_goes (lawful : codec.Lawful) (rereads : codec.Rereads)
    (kept : Kept codec memory.store) (below : memory.store.Below) {op : Op Data}
    (through : op.ThroughRepositories) :
    Goes codec memory.store ((machine codec).step memory op).1.store := by
  cases op with
  | putRecord disk record => exact through.elim
  | createIssue disk newID issue =>
      rcases create_advance lawful rereads kept disk newID issue with ⟨id, advance⟩
      exact .inl ⟨_, id, advance⟩
  | setStatus disk id status =>
      exact .inl ⟨_, id, setStatus_advance lawful rereads kept disk id status (below.at _ id)⟩
  | propose disk newID strategy =>
      rcases propose_advance lawful rereads kept disk newID strategy with ⟨id, advance⟩
      exact .inl ⟨_, id, advance⟩
  | transition disk id target =>
      exact .inl ⟨_, id, transition_advance lawful rereads kept disk id target (below.at _ id)⟩
  | supersede oldDisk newDisk oldID newID =>
      exact supersede_goes lawful rereads kept below oldDisk newDisk oldID newID
  | initProject disk manifest =>
      have unchanged : (memory.initProject codec disk manifest).2.store = memory.store := by
        simp only [initProject]
        split
        · rfl
        · split <;> rfl
      change Goes codec memory.store (memory.initProject codec disk manifest).2.store
      rw [unchanged]
      exact .refl _
  | _ => exact .refl _

/-! ## Runs -/

variable (codec) in
/-- The lifecycle of the strategy of an id, if it is stored. -/
def lifecycleOf (memory : Memory Data) (id : String) : Option String :=
  (memory.store.files.lookup (Layout.fileOf "strategy" id)).bind (Record.lifecycle codec)

variable (codec) in
/-- What a run keeps to: the revision of each record is the one inside its data; a call leaves a
record as it is, creates it at revision 1, a strategy as a candidate, or raises its revision by
one, a strategy along the promotion graph; a strategy is active only after it was validated, and
that after it was a candidate; and an archived strategy stays archived. -/
structure Disciplined (memory : Memory Data) (ops : List (Op Data)) : Prop where
  revision : ∀ count, ∀ record ∈ ((machine codec).run memory (ops.take count)).store.records,
    record.member codec "revision" = some (.num record.revision)
  changes : ∀ step ∈ (machine codec).steps memory ops, ∀ path,
    Change codec (step.before.store.files.lookup path) (step.after.store.files.lookup path)
  active : ∀ count id,
    lifecycleOf codec ((machine codec).run memory (ops.take count)) id = some "ACTIVE" →
      ∃ validated < count,
        lifecycleOf codec ((machine codec).run memory (ops.take validated)) id =
          some "VALIDATED" ∧
        ∃ candidate < validated,
          lifecycleOf codec ((machine codec).run memory (ops.take candidate)) id =
            some "CANDIDATE"
  archived : ∀ count later id, count ≤ later →
    lifecycleOf codec ((machine codec).run memory (ops.take count)) id = some "ARCHIVED" →
      lifecycleOf codec ((machine codec).run memory (ops.take later)) id = some "ARCHIVED"

/-- How the lifecycle of a strategy goes on. -/
inductive Follows : Option String → Option String → Prop
  | created : Follows none (some "CANDIDATE")
  | promoted {source target : Option String} (edge : Promoted source target) :
      Follows source target

theorem follows_of_change {old new : Option (Record Data)} (changes : Change codec old new)
    (isStrategy : ∀ record ∈ new, record.kind = "strategy") :
    Follows (old.bind (Record.lifecycle codec)) (new.bind (Record.lifecycle codec)) := by
  cases changes with
  | kept held => exact .promoted (.inl rfl)
  | created first candidate =>
      rw [Option.bind_some, candidate (isStrategy _ rfl)]
      exact .created
  | raised next promoted => exact .promoted (promoted (isStrategy _ rfl))

section Trail

variable {trail : ℕ → Option String} (start : trail 0 = none)
  (steps : ∀ moment, Follows (trail moment) (trail (moment + 1)))

include start steps in
/-- A state that is no candidate's was entered along an edge. -/
theorem entered {moment : ℕ} {state : String} (isState : trail moment = some state)
    (notFirst : state ≠ "CANDIDATE") :
    ∃ before < moment, ∃ source, trail before = some source ∧ state ∈ transitions source := by
  induction moment with
  | zero =>
      rw [start] at isState
      cases isState
  | succ moment ih =>
      have step := steps moment
      rw [isState] at step
      generalize isSource : trail moment = source at step
      cases step with
      | created => exact absurd rfl notFirst
      | promoted edge =>
          rcases edge with same | ⟨before, after, rfl, isAfter, isEdge⟩
          · rcases ih (isSource.trans same.symm) with ⟨before, earlier, entered⟩
            exact ⟨before, by omega, entered⟩
          · cases isAfter
            exact ⟨moment, by omega, before, isSource, isEdge⟩

include steps in
theorem archived_stays {moment later : ℕ} (after : moment ≤ later)
    (isArchived : trail moment = some "ARCHIVED") : trail later = some "ARCHIVED" := by
  induction later, after using Nat.le_induction with
  | base => exact isArchived
  | succ later after ih =>
      have step := steps later
      rw [ih] at step
      generalize trail (later + 1) = next at step
      cases step with
      | promoted edge =>
          rcases edge with same | ⟨before, target, isBefore, rfl, isEdge⟩
          · exact same
          · cases isBefore
            cases isEdge

end Trail

theorem eq_of_active_edge {source : String} (edge : "ACTIVE" ∈ transitions source) :
    source = "VALIDATED" := by
  unfold transitions at edge
  split at edge <;> simp at edge ⊢

theorem eq_of_validated_edge {source : String} (edge : "VALIDATED" ∈ transitions source) :
    source = "CANDIDATE" := by
  unfold transitions at edge
  split at edge <;> simp at edge ⊢

/-- From an empty store, through the repositories and as long as no record has reached the bound,
every run keeps to the discipline. -/
theorem disciplined_of_below (lawful : codec.Lawful) (rereads : codec.Rereads)
    {memory : Memory Data} (isEmpty : memory.store.files = ∅) {ops : List (Op Data)}
    (through : ∀ op ∈ ops, op.ThroughRepositories)
    (below : ∀ step ∈ (machine codec).steps memory ops, step.before.store.Below) :
    Disciplined codec memory ops := by
  have preserved : ∀ (memory : Memory Data) (op : Op Data), Kept codec memory.store →
      memory.store.Below ∧ op.ThroughRepositories →
      Kept codec ((machine codec).step memory op).1.store :=
    fun memory op kept guard => (step_goes lawful rereads kept guard.1 guard.2).kept kept
  have guarded : ∀ step ∈ (machine codec).steps memory ops,
      step.before.store.Below ∧ step.input.ThroughRepositories :=
    fun step stepMem => ⟨below step stepMem, through _ (Machine.input_mem step stepMem)⟩
  have initial : Kept codec memory.store := by
    constructor
    · intro path record found
      rw [isEmpty] at found
      cases found
    · intro path record found
      rw [isEmpty] at found
      cases found
  have keptAt : ∀ count, Kept codec ((machine codec).run memory (ops.take count)).store := by
    intro count
    refine Machine.run_invariant_of_guard _ preserved initial ?_
    exact fun step stepMem => guarded step (Machine.steps_take_subset memory ops count stepMem)
  have changes : ∀ step ∈ (machine codec).steps memory ops, ∀ path,
      Change codec (step.before.store.files.lookup path) (step.after.store.files.lookup path) := by
    intro step stepMem path
    have kept := Machine.invariant_before_of_guard _ preserved initial guarded step stepMem
    have goes := step_goes lawful rereads kept (guarded step stepMem).1 (guarded step stepMem).2
    rw [Machine.step_eq_stepAt stepMem]
    exact goes.change path
  have start : ∀ id, lifecycleOf codec ((machine codec).run memory (ops.take 0)) id = none := by
    intro id
    simp [lifecycleOf, isEmpty]
  have follows : ∀ id moment,
      Follows (lifecycleOf codec ((machine codec).run memory (ops.take moment)) id)
        (lifecycleOf codec ((machine codec).run memory (ops.take (moment + 1))) id) := by
    intro id moment
    refine follows_of_change ?_ ?_
    · exact Machine.take_related
        (fun before after : Memory Data => ∀ path,
          Change codec (before.store.files.lookup path) (after.store.files.lookup path))
        (fun memory path => .kept _) changes moment _
    · intro record found
      exact ((keptAt (moment + 1)).keyed.of_fileOf (by decide) found).1
  constructor
  · intro count record isThere
    rcases Store.mem_records.mp isThere with ⟨path, found⟩
    rcases ((keptAt count).told path record found).2 with ⟨state, tells⟩
    exact tells.revision
  · exact changes
  · intro count id isActive
    rcases entered (start id) (follows id) isActive (by decide) with
      ⟨validated, earlier, source, isSource, edge⟩
    cases eq_of_active_edge edge
    rcases entered (start id) (follows id) isSource (by decide) with
      ⟨candidate, first, source, isCandidate, firstEdge⟩
    cases eq_of_validated_edge firstEdge
    exact ⟨validated, earlier, isSource, candidate, first, isCandidate⟩
  · intro count later id after isArchived
    exact archived_stays (follows id) after isArchived

/-! ## Doubles -/

/-- A member's value as it is read into an `any`: an integer is rounded to a double. -/
def readValue : Json → Json
  | .num number =>
      if number.den = 1 then
        .num ((number.num.sign * Double.round53 number.num.natAbs : ℤ) : ℚ)
      else .num number
  | value => value

/-- JSON with the value of a document for its text and the state of an issue for its hash. -/
def doubleCodec : Codec Json where
  unmarshal
    | .obj entries => .ok (.obj (entries.map fun entry => (entry.1, readValue entry.2)))
    | value => .ok value
  marshal value := value
  compact data := data
  sha256Hex
    | .obj entries => (Json.stringAt (some entries) "status").getD ""
    | _ => ""

/-- An integer up to the bound is a double. -/
theorem readValue_integer {number : ℤ} (small : |number| ≤ exactBound) :
    readValue (.num number) = .num number := by
  have absolute : number.natAbs ≤ 2 ^ 53 := by
    have bounds := abs_le.mp small
    unfold exactBound at bounds
    omega
  have exact : Double.round53 number.natAbs = number.natAbs := by
    rcases Nat.lt_or_eq_of_le absolute with lower | same
    · rw [Double.round53, if_pos lower]
    · rw [same]
      decide
  simp only [readValue, Rat.den_intCast, if_true, Rat.num_intCast, exact, Int.sign_mul_natAbs]

theorem doubleCodec_lawful : doubleCodec.Lawful := ⟨fun _ => rfl⟩

theorem doubleCodec_rereads : doubleCodec.Rereads := by
  constructor
  intro written value nodup reads
  cases Except.ok.inj reads
  refine ⟨_, rfl, ?_, ?_, ?_⟩
  · simp [Function.comp_def]
  · intro name text isThere
    exact List.mem_map.mpr ⟨_, isThere, rfl⟩
  · intro name number small isThere
    exact List.mem_map.mpr ⟨_, isThere, by rw [readValue_integer small]⟩

/-- The JSON of an issue. -/
def issueText (revision : Json) (status : String) : Json :=
  .obj [("contractVersion", .str "1.0"), ("kind", .str "issue"), ("id", .str "iss_1"),
    ("revision", revision), ("title", .str "x"), ("type", .str "bug"), ("status", .str status)]

/-- The issue of that JSON. -/
def issueOf (revision : ℤ) (status : String) : V1.Issue :=
  { contractVersion := "1.0", kind := "issue", id := "iss_1", revision := some revision
    title := "x", type := "bug", status := status }

/-- A status that is another one after each change. -/
def statusAt (changes : ℕ) : String := if changes % 2 = 0 then "open" else "closed"

/-- The record of the issue after a number of changes of its status. -/
def issueAt (changes : ℕ) : Record Json :=
  { kind := "issue", id := "iss_1", revision := changes + 1
    data := issueText (readValue (.num ((changes + 1 : ℤ) : ℚ))) (statusAt changes)
    hash := statusAt changes }

/-- An issue is created, and its status changed again and again. -/
def statusChanges : ℕ → List (Op Json)
  | 0 => [.createIssue {} "iss_0" { id := "iss_1", title := "x", type := "bug" }]
  | changes + 1 => statusChanges changes ++ [.setStatus {} "iss_1" (statusAt (changes + 1))]

def emptyObjects : Memory Json := { store := {}, projection := {} }

theorem decodeIssue_issueText (revision : ℤ) (status : String)
    (inRange : 0 ≤ revision ∧ revision ≤ exactBound) :
    V1.decodeIssue (issueText (.num revision) status) {} = .ok (issueOf revision status) := by
  have isInt : GoJson.int (.num revision) 0 = .ok revision := by
    unfold exactBound at inRange
    rw [GoJson.int, if_pos]
    · rw [Rat.num_intCast]
    · rw [Rat.den_intCast, Rat.num_intCast]
      omega
  have asPointer : ∀ old, GoJson.pointer 0 GoJson.int (.num revision) old = .ok (some revision) := by
    intro old
    simp only [GoJson.pointer, isInt, Except.map]
  have sorted : ([("contractVersion", .str "1.0"), ("kind", .str "issue"), ("id", .str "iss_1"),
      ("revision", .num revision), ("title", .str "x"), ("type", .str "bug"),
      ("status", .str status)] : Json.Object).insertionSort (fun left right => left.1 ≤ right.1) =
      [("contractVersion", .str "1.0"), ("id", .str "iss_1"), ("kind", .str "issue"),
        ("revision", .num revision), ("status", .str status), ("title", .str "x"),
        ("type", .str "bug")] := by
    simp [List.insertionSort, List.orderedInsert]
  simp only [V1.decodeIssue, GoJson.struct, issueText]
  rw [sorted]
  simp [V1.envelopeFields, V1.stringField, GoJson.field, GoJson.fieldFor, List.lookup, asPointer,
    GoJson.string, Except.map, bind, Except.bind, pure, Except.pure, issueOf]

theorem newRecord_issueText (changes : ℕ) :
    newRecord doubleCodec "issue" "iss_1" (changes + 1)
      (doubleCodec.marshal (issueText (.num ((changes + 1 : ℤ) : ℚ)) (statusAt changes))) =
      .ok (issueAt changes) := by
  have natural : ¬ (changes + 1 : ℤ) < 0 := by omega
  have kindOk : V1.requireIdentifier "kind" "issue" = .ok () := by decide
  have idOk : V1.requireIdentifier "id" "iss_1" = .ok () := by decide
  rw [newRecord, kindOk, idOk]
  simp only [if_neg natural]
  rfl

theorem validate_issueAt (changes : ℕ) : (issueAt changes).validate doubleCodec = .ok () := by
  have natural : ¬ (issueAt changes).revision < 0 := by
    simp only [issueAt]
    omega
  have kindOk : V1.requireIdentifier "kind" (issueAt changes).kind = .ok () :=
    (by decide : V1.requireIdentifier "kind" "issue" = .ok ())
  have idOk : V1.requireIdentifier "id" (issueAt changes).id = .ok () :=
    (by decide : V1.requireIdentifier "id" "iss_1" = .ok ())
  have hashed : doubleCodec.hashBytes (issueAt changes).data = .ok (issueAt changes).hash := rfl
  simp only [Record.validate, kindOk, idOk, if_neg natural, hashed, ne_eq, not_true_eq_false,
    if_false]

theorem statusAt_ne (changes : ℕ) : statusAt changes ≠ statusAt (changes + 1) := by
  unfold statusAt
  split
  · rw [if_neg (by omega)]
    decide
  · rw [if_pos (by omega)]
    decide

theorem issueAt_data {changes : ℕ} (small : changes < 2 ^ 53) :
    (issueAt changes).data =
      issueText (.num ((changes + 1 : ℤ) : ℚ)) (statusAt changes) := by
  have inBound : |(changes + 1 : ℤ)| ≤ exactBound := by
    unfold exactBound
    rw [abs_of_nonneg (by omega)]
    omega
  rw [issueAt, readValue_integer inBound]

theorem issueOf_toJson (revision : ℤ) (status : String) :
    (issueOf revision status).toJson = issueText (.num revision) status := by
  simp [V1.Issue.toJson, V1.Envelope.members, V1.member, V1.optionalMember, V1.pointerMember,
    issueOf, issueText]

theorem issueOf_validate (revision : ℤ) (changes : ℕ) :
    (issueOf revision (statusAt changes)).validate = .ok () := by
  have regardless : (issueOf revision (statusAt changes)).validate =
      (issueOf 0 (statusAt changes)).validate := rfl
  rw [regardless]
  unfold statusAt
  split <;> decide +kernel

/-- A typed write of the next version of the issue. -/
theorem putTyped_issueAt (memory : Memory Json) (changes : ℕ)
    (replaces : ∀ existing ∈ memory.store.files.lookup (Layout.fileOf "issue" "iss_1"),
      ∃ earlier, changes = earlier + 1 ∧ existing = issueAt earlier) :
    ∃ after, putTyped doubleCodec {} memory "issue" "iss_1" (changes + 1)
        (issueOf (changes + 1) (statusAt changes)).toJson = (.ok true, after) ∧
      after.store = { files :=
        memory.store.files.insert (Layout.fileOf "issue" "iss_1") (issueAt changes) } := by
  have takes : memory.store.Takes doubleCodec {} (issueAt changes) := by
    refine ⟨validate_issueAt changes, rfl, rfl, ?_⟩
    intro existing found
    rcases replaces existing found with ⟨earlier, rfl, rfl⟩
    refine ⟨statusAt_ne earlier, ?_⟩
    simp only [issueAt]
    omega
  rw [issueOf_toJson, putTyped, newRecord_issueText]
  simp only [Store.putRecordOn_of_takes takes]
  exact ⟨_, rfl, rfl⟩

theorem held_issueAt {memory : Memory Json} {changes : ℕ}
    (found : memory.store.files.lookup (Layout.fileOf "issue" "iss_1") = some (issueAt changes)) :
    memory.store.getRecordOn none "issue" "iss_1" = .ok (issueAt changes) := by
  have path : Layout.recordPath "issue" "iss_1" = .ok (Layout.fileOf "issue" "iss_1") :=
    recordPath_of_valid (validate_issueAt changes)
  simp only [Store.getRecordOn, path, found]

theorem unmarshal_issueText {revision : ℤ} (small : |revision| ≤ exactBound) (status : String) :
    doubleCodec.unmarshal (issueText (.num revision) status) =
      .ok (issueText (.num revision) status) := by
  simp only [doubleCodec, issueText, List.map_cons, List.map_nil, readValue_integer small]
  rfl

theorem get_issueAt {memory : Memory Json} {changes : ℕ} (small : changes < 2 ^ 53)
    (found : memory.store.files.lookup (Layout.fileOf "issue" "iss_1") = some (issueAt changes)) :
    IssueRepository.get doubleCodec none memory "iss_1" =
      .ok (issueOf (changes + 1) (statusAt changes)) := by
  have inBound : 0 ≤ (changes + 1 : ℤ) ∧ (changes + 1 : ℤ) ≤ exactBound := by
    unfold exactBound
    omega
  have unmarshalled : doubleCodec.unmarshal (issueAt changes).data =
      .ok (issueText (.num ((changes + 1 : ℤ) : ℚ)) (statusAt changes)) := by
    rw [issueAt_data small, unmarshal_issueText (abs_le.mpr ⟨by omega, inBound.2⟩)]
  rw [IssueRepository.get, getTyped, held_issueAt found]
  simp only [unmarshalled, Except.bind]
  rw [decodeIssue_issueText _ _ inBound]

/-- Another status raises the revision of the issue. -/
theorem setStatus_issueAt {memory : Memory Json} {changes : ℕ} (small : changes < 2 ^ 53)
    (found : memory.store.files.lookup (Layout.fileOf "issue" "iss_1") = some (issueAt changes)) :
    ((machine doubleCodec).step memory
      (.setStatus {} "iss_1" (statusAt (changes + 1)))).1.store =
      { files := memory.store.files.insert (Layout.fileOf "issue" "iss_1")
          (issueAt (changes + 1)) } := by
  have isRevision : revisionOf none memory "issue" "iss_1" + 1 = ((changes + 1 : ℕ) + 1 : ℤ) := by
    simp only [revisionOf, held_issueAt found, issueAt]
    omega
  have isOther : (issueOf (changes + 1) (statusAt changes)).status ≠ statusAt (changes + 1) :=
    statusAt_ne changes
  have known : V1.validateIssueState (statusAt (changes + 1)) = .ok () := by
    unfold statusAt
    split <;> decide
  have valid := issueOf_validate ((changes + 1 : ℕ) + 1) (changes + 1)
  have replaces : ∀ existing ∈ memory.store.files.lookup (Layout.fileOf "issue" "iss_1"),
      ∃ earlier, changes + 1 = earlier + 1 ∧ existing = issueAt earlier := by
    intro existing isThere
    exact ⟨changes, rfl, Option.some.inj (isThere.symm.trans found)⟩
  rcases putTyped_issueAt memory (changes + 1) replaces with ⟨after, wrote, isStore⟩
  change (IssueRepository.setStatus doubleCodec {} memory "iss_1" _).2.store = _
  simp only [IssueRepository.setStatus, get_issueAt small found, if_neg isOther, known, isRevision]
  simp only [issueOf] at valid wrote ⊢
  simp only [valid, wrote]
  exact isStore

theorem create_issueAt :
    ((machine doubleCodec).step emptyObjects
      (.createIssue {} "iss_0" { id := "iss_1", title := "x", type := "bug" })).1.store =
      { files := emptyObjects.store.files.insert (Layout.fileOf "issue" "iss_1") (issueAt 0) } := by
  rcases putTyped_issueAt emptyObjects 0 (fun existing found => nomatch found) with
    ⟨after, wrote, isStore⟩
  have valid := issueOf_validate (((0 : ℕ) : ℤ) + 1) 0
  have given : ¬ "iss_1" = "" := by decide
  have isOpen : statusAt 0 = "open" := by decide
  simp only [issueOf, isOpen, Nat.cast_zero, zero_add] at valid wrote
  simp only [machine, step, IssueRepository.create, if_true, if_neg given, V1.Version, valid, wrote]
  exact isStore

/-- The memory holds the issue after a number of changes of its status, and nothing else. -/
def HoldsIssue (memory : Memory Json) (changes : ℕ) : Prop :=
  ∀ path, memory.store.files.lookup path =
    if path = Layout.fileOf "issue" "iss_1" then some (issueAt changes) else none

theorem holdsIssue_insert {memory after : Memory Json} {changes : ℕ}
    (nothingElse : ∀ path, path ≠ Layout.fileOf "issue" "iss_1" →
      memory.store.files.lookup path = none)
    (isStore : after.store = { files :=
      memory.store.files.insert (Layout.fileOf "issue" "iss_1") (issueAt changes) }) :
    after.HoldsIssue changes := by
  intro path
  rw [isStore]
  by_cases isPath : path = Layout.fileOf "issue" "iss_1"
  · rw [if_pos isPath, isPath, AList.lookup_insert]
  · rw [if_neg isPath, AList.lookup_insert_ne isPath, nothingElse path isPath]

theorem run_statusChanges {changes : ℕ} (small : changes ≤ 2 ^ 53) :
    ((machine doubleCodec).run emptyObjects (statusChanges changes)).HoldsIssue changes := by
  induction changes with
  | zero => exact holdsIssue_insert (fun path _ => rfl) create_issueAt
  | succ changes ih =>
      have holds := ih (by omega)
      rw [statusChanges, Machine.run_append]
      refine holdsIssue_insert ?_ (setStatus_issueAt (by omega) ?_)
      · intro path isOther
        rw [holds path, if_neg isOther]
      · rw [holds, if_pos rfl]

theorem HoldsIssue.below {memory : Memory Json} {changes : ℕ} (holds : memory.HoldsIssue changes)
    (small : changes + 1 < 2 ^ 53) : memory.store.Below := by
  intro record isThere
  rcases Store.mem_records.mp isThere with ⟨path, found⟩
  rw [holds path] at found
  split at found
  · cases found
    simp only [issueAt, exactBound]
    omega
  · cases found

theorem below_statusChanges {changes : ℕ} (small : changes < 2 ^ 53) :
    ∀ step ∈ (machine doubleCodec).steps emptyObjects (statusChanges changes),
      step.before.store.Below := by
  induction changes with
  | zero =>
      intro step stepMem
      cases List.mem_singleton.mp stepMem
      intro record isThere
      cases isThere
  | succ changes ih =>
      intro step stepMem
      rw [statusChanges, Machine.steps_append] at stepMem
      rcases List.mem_append.mp stepMem with earlier | last
      · exact ih (by omega) step earlier
      · cases List.mem_singleton.mp last
        exact (run_statusChanges (by omega)).below small

theorem through_statusChanges (changes : ℕ) :
    ∀ op ∈ statusChanges changes, op.ThroughRepositories := by
  induction changes with
  | zero =>
      intro op isThere
      cases List.mem_singleton.mp isThere
      trivial
  | succ changes ih =>
      intro op isThere
      rcases List.mem_append.mp isThere with earlier | last
      · exact ih op earlier
      · cases List.mem_singleton.mp last
        trivial

theorem statusChanges_disciplined : Disciplined doubleCodec emptyObjects (statusChanges 3) :=
  disciplined_of_below doubleCodec_lawful doubleCodec_rereads rfl (through_statusChanges 3)
    (below_statusChanges (by norm_num))

/-- The first integer above the bound is rounded to it. -/
theorem readValue_above :
    readValue (.num ((exactBound + 1 : ℤ) : ℚ)) = .num ((exactBound : ℤ) : ℚ) := by
  have rounded : (exactBound + 1).sign * Double.round53 (exactBound + 1).natAbs = exactBound := by
    decide
  simp only [readValue, Rat.den_intCast, if_true, Rat.num_intCast, rounded]

/-- A record whose revision is above the bound does not tell it. -/
theorem not_disciplined_of_above {changes : ℕ} (small : changes ≤ 2 ^ 53)
    (isBound : (changes : ℤ) = exactBound) :
    ¬ Disciplined doubleCodec emptyObjects (statusChanges changes) := by
  intro disciplined
  have holds := run_statusChanges small
  have tells := disciplined.revision (statusChanges changes).length (issueAt changes)
  rw [List.take_length] at tells
  have inner := tells (Store.mem_records.mpr ⟨_, by rw [holds, if_pos rfl]⟩)
  have isRead : (issueAt changes).member doubleCodec "revision" =
      some (readValue (readValue (.num ((changes + 1 : ℤ) : ℚ)))) := rfl
  have isRevision : (issueAt changes).revision = exactBound + 1 := by rw [issueAt, isBound]
  rw [isRead, isBound, readValue_above, readValue_integer (by decide), isRevision] at inner
  have same : ((exactBound : ℤ) : ℚ) = ((exactBound + 1 : ℤ) : ℚ) :=
    Json.num.inj (Option.some.inj inner)
  have sameInt := Int.cast_injective same
  omega

/-- At the revision 2 ^ 53 + 1 the data of the record still tells 2 ^ 53. -/
theorem statusChanges_undisciplined :
    (∀ op ∈ statusChanges (2 ^ 53), op.ThroughRepositories) ∧
      ¬ Disciplined doubleCodec emptyObjects (statusChanges (2 ^ 53)) :=
  ⟨through_statusChanges (2 ^ 53), not_disciplined_of_above le_rfl (by decide)⟩

end Memory

end Aa.Memory
