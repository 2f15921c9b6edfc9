import Aa.Library.Register
import Aa.Memory.Store

/-!
# Convergence of the record store

The file of one record is a register: a record replaces the one on disk when its hash
differs and its revision is higher. Ingesting the records of one kind and id, in any
batches, offers them to that register one by one. What the file holds in the end is
independent of the order, and is the record of the highest revision, exactly when no
other record repeats the content of that one: the same-content shortcut leaves the
lower revision on disk, and a revision between the two then passes the stale check.
-/

namespace Aa.Memory

open Aa.Library Aa.Contracts

variable {Data : Type} {codec : Codec Data}

/-- The register a record file is. -/
def recordRegister (Data : Type) : Register (Record Data) where
  replaces held offered := held.hash ≠ offered.hash ∧ held.revision < offered.revision
  decidable _ _ := inferInstanceAs (Decidable (_ ∧ _))

/-- Valid records of one kind and id with pairwise distinct revisions. -/
structure RecordFamily (codec : Codec Data) (kind id : String) where
  records : List (Record Data)
  valid : ∀ record ∈ records, record.validate codec = .ok ()
  identity : ∀ record ∈ records, record.kind = kind ∧ record.id = id
  distinct : records.Pairwise fun left right => left.revision ≠ right.revision

namespace RecordFamily

variable {kind id : String} (family : RecordFamily codec kind id)

theorem nodup : family.records.Nodup :=
  family.distinct.imp fun revisionNe same => revisionNe (congrArg Record.revision same)

theorem eq_of_revision_eq {left right : Record Data} (leftMem : left ∈ family.records)
    (rightMem : right ∈ family.records) (sameRevision : left.revision = right.revision) :
    left = right := by
  have symmetric : Std.Symm fun left right : Record Data => left.revision ≠ right.revision :=
    ⟨fun _ _ revisionNe => revisionNe.symm⟩
  by_contra different
  exact family.distinct.forall leftMem rightMem different sameRevision

end RecordFamily

theorem recordPath_of_valid {record : Record Data} (valid : record.validate codec = .ok ()) :
    Layout.recordPath record.kind record.id = .ok (record.kind ++ "/" ++ record.id ++ ".json") := by
  rcases Record.identifiers_of_validate valid with ⟨kindOk, idOk⟩
  simp only [Layout.recordPath, Layout.safeSegment_of_identifier kindOk,
    Layout.safeSegment_of_identifier idOk]

namespace Store

/-- The file of a record of a kind and id, when there is one. -/
def slot (store : Store Data) (kind id : String) : Option (Record Data) :=
  store.files.lookup (kind ++ "/" ++ id ++ ".json")

/-- Writing a valid record offers it to the register of its file. -/
theorem slot_putRecord {store : Store Data} {record : Record Data} {held : Option (Record Data)}
    (valid : record.validate codec = .ok ())
    (holds : store.slot record.kind record.id = held.map (Record.stored codec)) :
    (store.putRecord codec record).2.slot record.kind record.id =
      ((recordRegister Data).offer held record).map (Record.stored codec) := by
  simp only [slot] at holds ⊢
  simp only [putRecord, valid, recordPath_of_valid valid]
  cases held with
  | none => simp [holds, Register.offer]
  | some current =>
      simp only [holds, Option.map_some, Record.stored_hash, Record.stored_revision,
        Register.offer, recordRegister]
      by_cases sameHash : current.hash = record.hash
      · simp [sameHash, holds]
      · by_cases stale : record.revision ≤ current.revision
        · simp [sameHash, stale, holds, not_lt.mpr stale]
        · simp [sameHash, stale, not_le.mp stale]

theorem slot_putAll {kind id : String} {records : List (Record Data)} {store : Store Data}
    {held : Option (Record Data)} (valid : ∀ record ∈ records, record.validate codec = .ok ())
    (identity : ∀ record ∈ records, record.kind = kind ∧ record.id = id)
    (holds : store.slot kind id = held.map (Record.stored codec)) :
    (store.putAll codec records).slot kind id =
      ((recordRegister Data).offerAll held records).map (Record.stored codec) := by
  induction records generalizing store held with
  | nil => exact holds
  | cons record rest ih =>
      rcases identity record (by simp) with ⟨rfl, rfl⟩
      refine ih (fun other otherMem => valid other (by simp [otherMem]))
        (fun other otherMem => identity other (by simp [otherMem])) ?_
      exact slot_putRecord (valid record (by simp)) holds

/-- A batch is ingested up to its end, or up to the record its error is about. -/
theorem ingestFrom_spec {options : IngestOptions} {records : List (Record Data)}
    (provenanced : ∀ record ∈ records,
      options.requireProvenance = true → requireProvenance codec record.data = .ok ())
    (store : Store Data) (result : IngestResult) :
    (∃ counts, ingestFrom codec options store result records =
        (counts, none, store.putAll codec records)) ∨
      ∃ counts message done stopped rest, records = done ++ stopped :: rest ∧
        counts.new + counts.unchanged = result.new + result.unchanged + done.length ∧
        ingestFrom codec options store result records =
          (counts, some message, store.putAll codec (done ++ [stopped])) := by
  induction records generalizing store result with
  | nil => exact Or.inl ⟨result, rfl⟩
  | cons record rest ih =>
      have passes : (if options.requireProvenance then requireProvenance codec record.data
          else .ok ()) = .ok () := by
        split
        · rename_i required
          exact provenanced record (by simp) required
        · rfl
      have provenancedRest : ∀ other ∈ rest,
          options.requireProvenance = true → requireProvenance codec other.data = .ok () :=
        fun other otherMem => provenanced other (by simp [otherMem])
      simp only [ingestFrom, passes]
      -- Both kinds of success go on with the rest, one count higher.
      have goesOn : ∀ (next : Store Data) (counted : IngestResult),
          next = (store.putRecord codec record).2 →
          counted.new + counted.unchanged = result.new + result.unchanged + 1 →
          (∃ counts, ingestFrom codec options next counted rest =
              (counts, none, store.putAll codec (record :: rest))) ∨
            ∃ counts message done stopped later, record :: rest = done ++ stopped :: later ∧
              counts.new + counts.unchanged = result.new + result.unchanged + done.length ∧
              ingestFrom codec options next counted rest =
                (counts, some message, store.putAll codec (done ++ [stopped])) := by
        rintro next counted rfl countedEq
        rcases ih provenancedRest (store.putRecord codec record).2 counted with
          ⟨counts, ended⟩ | ⟨counts, message, done, stopped, later, restEq, countsEq, ended⟩
        · exact Or.inl ⟨counts, ended⟩
        · refine Or.inr ⟨counts, message, record :: done, stopped, later, ?_, ?_, ended⟩
          · rw [restEq, List.cons_append]
          · simp only [List.length_cons]
            omega
      split
      · rename_i message next putEq
        refine Or.inr ⟨result, message, [], record, rest, rfl, rfl, ?_⟩
        simp [putAll, putEq]
      · rename_i next putEq
        exact goesOn next _ (by rw [putEq]) (by simp only; omega)
      · rename_i next putEq
        exact goesOn next _ (by rw [putEq]) (by simp only; omega)

/-- A caller that ignores errors writes every record of a batch. -/
theorem ingestIgnoring_eq_putAll {options : IngestOptions} {records : List (Record Data)}
    (provenanced : ∀ record ∈ records,
      options.requireProvenance = true → requireProvenance codec record.data = .ok ())
    (store : Store Data) :
    store.ingestIgnoring codec records options = store.putAll codec records := by
  induction size : records.length using Nat.strong_induction_on generalizing store records with
  | _ size ih =>
      subst size
      rw [ingestIgnoring]
      rcases ingestFrom_spec provenanced store {} with
        ⟨counts, ended⟩ | ⟨counts, message, done, stopped, rest, recordsEq, countsEq, ended⟩
      · simp [ingestRecords, ended]
      · have remaining : records.drop (counts.new + counts.unchanged) = stopped :: rest := by
          rw [countsEq, recordsEq]
          simp
        have shorter : rest.length < records.length := by
          rw [recordsEq]
          simp only [List.length_append, List.length_cons]
          omega
        have restProvenanced : ∀ record ∈ rest,
            options.requireProvenance = true → requireProvenance codec record.data = .ok () := by
          intro record recordMem
          refine provenanced record ?_
          rw [recordsEq]
          simp [recordMem]
        simp only [ingestRecords, ended]
        split
        · rename_i empty
          simp [remaining] at empty
        · rename_i head tail split
          rw [remaining] at split
          rcases List.cons.inj split with ⟨rfl, rfl⟩
          rw [ih _ shorter restProvenanced _ rfl, recordsEq]
          simp [putAll]

end Store

/-- An ingestion of a family: its records in some order, cut into batches. -/
structure RecordFamily.Ingestion {kind id : String} (family : RecordFamily codec kind id) where
  batches : List (List (Record Data) × IngestOptions)
  complete : (batches.flatMap Prod.fst).Perm family.records
  provenanced : ∀ batch ∈ batches, ∀ record ∈ batch.1,
    batch.2.requireProvenance = true → requireProvenance codec record.data = .ok ()

/-- Ingests batch after batch, ignoring errors. -/
def Store.ingestBatches (codec : Codec Data) (store : Store Data)
    (batches : List (List (Record Data) × IngestOptions)) : Store Data :=
  batches.foldl (fun store batch => store.ingestIgnoring codec batch.1 batch.2) store

theorem Store.ingestBatches_eq_putAll {batches : List (List (Record Data) × IngestOptions)}
    (provenanced : ∀ batch ∈ batches, ∀ record ∈ batch.1,
      batch.2.requireProvenance = true → requireProvenance codec record.data = .ok ())
    (store : Store Data) :
    store.ingestBatches codec batches = store.putAll codec (batches.flatMap Prod.fst) := by
  induction batches generalizing store with
  | nil => rfl
  | cons batch rest ih =>
      have restProvenanced : ∀ other ∈ rest, ∀ record ∈ other.1,
          other.2.requireProvenance = true → requireProvenance codec record.data = .ok () :=
        fun other otherMem => provenanced other (by simp [otherMem])
      calc store.ingestBatches codec (batch :: rest)
        _ = (store.ingestIgnoring codec batch.1 batch.2).ingestBatches codec rest := rfl
        _ = (store.putAll codec batch.1).ingestBatches codec rest := by
            rw [Store.ingestIgnoring_eq_putAll (provenanced batch (by simp))]
        _ = (store.putAll codec batch.1).putAll codec (rest.flatMap Prod.fst) :=
            ih restProvenanced _
        _ = store.putAll codec ((batch :: rest).flatMap Prod.fst) := by
            simp [Store.putAll, List.foldl_append]

/-- Ingested into a store that holds no record of the family's kind and id, in any order
and any batches, a family leaves the record of the highest revision exactly when no other
record of it has that record's hash. -/
theorem RecordFamily.converges_iff {kind id : String} (family : RecordFamily codec kind id)
    {top : Record Data} (topMem : top ∈ family.records)
    (highest : ∀ record ∈ family.records, record.revision ≤ top.revision)
    {store : Store Data} (fresh : store.getRecord kind id = .ok none) :
    (∀ ingestion : family.Ingestion,
        (store.ingestBatches codec ingestion.batches).getRecord kind id =
          .ok (some (top.stored codec))) ↔
      ∀ record ∈ family.records, record ≠ top → record.hash ≠ top.hash := by
  rcases family.identity top topMem with ⟨kindEq, idEq⟩
  have path := recordPath_of_valid (family.valid top topMem)
  rw [kindEq, idEq] at path
  have getRecord_eq : ∀ store : Store Data, store.getRecord kind id = .ok (store.slot kind id) := by
    intro store
    simp [Store.getRecord, path, Except.map, Store.slot]
  have empty : store.slot kind id = none := by
    rw [getRecord_eq] at fresh
    exact Except.ok.inj fresh
  have final : ∀ order : List (Record Data), order.Perm family.records →
      (store.putAll codec order).slot kind id =
        ((recordRegister Data).offerAll none order).map (Record.stored codec) := by
    intro order perm
    exact Store.slot_putAll (fun record recordMem => family.valid record (perm.mem_iff.mp recordMem))
      (fun record recordMem => family.identity record (perm.mem_iff.mp recordMem)) empty
  have kept : ∀ record ∈ family.records, ¬ (recordRegister Data).replaces top record :=
    fun record recordMem replaced => absurd (highest record recordMem) (not_le.mpr replaced.2)
  have lower : ∀ record ∈ family.records, record ≠ top → record.revision < top.revision := by
    intro record recordMem notTop
    refine lt_of_le_of_ne (highest record recordMem) ?_
    intro sameRevision
    exact notTop (family.eq_of_revision_eq recordMem topMem sameRevision)
  have ingested : ∀ ingestion : family.Ingestion,
      (store.ingestBatches codec ingestion.batches).getRecord kind id =
        .ok (((recordRegister Data).offerAll none (ingestion.batches.flatMap Prod.fst)).map
          (Record.stored codec)) := by
    intro ingestion
    rw [getRecord_eq, Store.ingestBatches_eq_putAll ingestion.provenanced,
      final _ ingestion.complete]
  constructor
  · intro converges
    -- Every order is an ingestion in one batch that asks for no provenance.
    have allOrders : ∀ order : List (Record Data), order.Perm family.records →
        (recordRegister Data).offerAll none order = some top := by
      intro order perm
      have got := converges ⟨[(order, {})], by simpa using perm, by simp⟩
      rw [ingested] at got
      simp only [List.flatMap_cons, List.flatMap_nil, List.append_nil, Except.ok.injEq] at got
      rcases Option.map_eq_some_iff.mp got with ⟨last, lastEq, storedEq⟩
      have lastMem : last ∈ family.records := by
        by_contra notMem
        exact Register.offerAll_ne_of_not_mem (by simp)
          (fun lastMem => notMem (perm.mem_iff.mp lastMem)) lastEq
      have sameRevision : last.revision = top.revision := by
        simpa using congrArg Record.revision storedEq
      rw [lastEq, family.eq_of_revision_eq lastMem topMem sameRevision]
    intro record recordMem notTop
    exact ((Register.forall_perm_offerAll_iff family.nodup topMem kept).mp allOrders
      record recordMem notTop).1
  · intro distinctContent ingestion
    have dominates : ∀ record ∈ family.records, record ≠ top →
        (recordRegister Data).replaces record top :=
      fun record recordMem notTop =>
        ⟨distinctContent record recordMem notTop, lower record recordMem notTop⟩
    rw [ingested, (Register.forall_perm_offerAll_iff family.nodup topMem kept).mpr dominates _
      ingestion.complete]
    rfl

/-- JSON and SHA-256 on the two documents of the example family. -/
def titleCodec : Codec String where
  unmarshal data :=
    if data = "\x7b\"title\":\"a\"\x7d" then .ok (.obj [("title", .str "a")])
    else if data = "\x7b\"title\":\"b\"\x7d" then .ok (.obj [("title", .str "b")])
    else .error "unexpected end of JSON input"
  marshal
    | .obj [("title", .str title)] => "\x7b\"title\":\"" ++ title ++ "\"\x7d"
    | _ => "null"
  compact data := data
  sha256Hex data :=
    if data = "\x7b\"title\":\"a\"\x7d" then
      "c66a6f9e3a6339f6c80c5fb40a9c15c11878e8aae519469861478ff8643b0f4f"
    else if data = "\x7b\"title\":\"b\"\x7d" then
      "db5510a0013cf0eb8cd2cca88ace328956328a23cb9da7b548a78346e8ddb9eb"
    else ""

def titleA (revision : ℤ) : Record String :=
  { kind := "issue", id := "iss_1", revision := revision, data := "\x7b\"title\":\"a\"\x7d"
    hash := "c66a6f9e3a6339f6c80c5fb40a9c15c11878e8aae519469861478ff8643b0f4f" }

def titleB (revision : ℤ) : Record String :=
  { kind := "issue", id := "iss_1", revision := revision, data := "\x7b\"title\":\"b\"\x7d"
    hash := "db5510a0013cf0eb8cd2cca88ace328956328a23cb9da7b548a78346e8ddb9eb" }

/-- A title that is changed at revision 2 and changed back at revision 3. -/
def changedBack : RecordFamily titleCodec "issue" "iss_1" where
  records := [titleA 1, titleA 3, titleB 2]
  valid := by decide
  identity := by decide
  distinct := by decide

/-- The title that was changed back ends as the one of revision 2 when the revisions
arrive in the order 1, 3, 2. -/
theorem changedBack_ends_stale :
    ¬ ∀ ingestion : changedBack.Ingestion,
      (({} : Store String).ingestBatches titleCodec ingestion.batches).getRecord "issue" "iss_1" =
        .ok (some ((titleA 3).stored titleCodec)) := by
  intro converges
  have ended := converges ⟨[([titleA 1, titleA 3, titleB 2], {})], by decide, by simp⟩
  rw [Store.ingestBatches_eq_putAll (by simp)] at ended
  revert ended
  decide

theorem changedBack_converges_iff :
    (∀ ingestion : changedBack.Ingestion,
        (({} : Store String).ingestBatches titleCodec ingestion.batches).getRecord
          "issue" "iss_1" = .ok (some ((titleA 3).stored titleCodec))) ↔
      ∀ record ∈ changedBack.records, record ≠ titleA 3 → record.hash ≠ (titleA 3).hash :=
  changedBack.converges_iff (by decide) (by decide) (by rfl)

end Aa.Memory
