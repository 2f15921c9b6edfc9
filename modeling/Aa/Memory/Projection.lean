import Aa.Memory.Convergence

/-!
# The projection and its rebuild

A projection is a derived view over the canonical records, keyed by kind and id. A rebuild
empties it and puts every record of the store, in the order of kind and id. For a store
whose files lie where their records say, it shows exactly the records of the store.
-/

namespace Aa.Memory

open Aa.Library Aa.Contracts

variable {Data : Type}

/-- One projected record. -/
structure Entry (Data : Type) where
  kind : String
  id : String
  revision : ℤ
  hash : String
  data : Data
deriving DecidableEq

/-- Converts a canonical record into a projection entry. -/
def fromRecord (record : Record Data) : Entry Data :=
  { kind := record.kind, id := record.id, revision := record.revision, hash := record.hash
    data := record.data }

@[simp]
theorem fromRecord_kind (record : Record Data) : (fromRecord record).kind = record.kind := rfl

@[simp]
theorem fromRecord_id (record : Record Data) : (fromRecord record).id = record.id := rfl

@[simp]
theorem fromRecord_hash (record : Record Data) : (fromRecord record).hash = record.hash := rfl

@[simp]
theorem fromRecord_revision (record : Record Data) :
    (fromRecord record).revision = record.revision := rfl

/-- The separator of a projection key. -/
def keySeparator : String := String.ofList [Char.ofNat 0]

/-- The key of a kind and an id in a projection. -/
def key (kind id : String) : String := kind ++ keySeparator ++ id

/-- The reference in-memory projection. -/
structure MemProjection (Data : Type) where
  entries : GoMap String (Entry Data) := ∅

/-- Every record of the store, sorted by kind then id. -/
def Store.listAllRecords (store : Store Data) : List (Record Data) :=
  (store.files.entries.map Sigma.snd).mergeSort fun left right =>
    if left.kind = right.kind then decide (left.id ≤ right.id) else decide (left.kind ≤ right.kind)

namespace MemProjection

/-- Inserts or replaces an entry. -/
def put (projection : MemProjection Data) (entry : Entry Data) :
    Except String Unit × MemProjection Data :=
  if entry.kind = "" ∨ entry.id = "" then
    (.error "projection: kind and id are required", projection)
  else
    match projection.entries.lookup (key entry.kind entry.id) with
    | some existing =>
        if existing.hash = entry.hash then (.ok (), projection)
        else if entry.revision < existing.revision then
          (.error ("projection: stale revision " ++ Go.itoa entry.revision ++ " for " ++
            entry.kind ++ "/" ++ entry.id), projection)
        else (.ok (), { entries := projection.entries.insert (key entry.kind entry.id) entry })
    | none => (.ok (), { entries := projection.entries.insert (key entry.kind entry.id) entry })

/-- The entry of a kind and id. -/
def get (projection : MemProjection Data) (kind id : String) : Option (Entry Data) :=
  projection.entries.lookup (key kind id)

/-- Puts records until the first error. -/
def putEach (projection : MemProjection Data) :
    List (Record Data) → Except String Unit × MemProjection Data
  | [] => (.ok (), projection)
  | record :: rest =>
      match projection.put (fromRecord record) with
      | (.error message, projection) => (.error message, projection)
      | (.ok (), projection) => putEach projection rest

/-- Discards all entries. -/
def reset (_projection : MemProjection Data) : MemProjection Data := {}

/-- Discards the projection and reconstructs it from canonical records; `unreadable` is
the error that listing the records fails with. -/
def rebuild (projection : MemProjection Data) (store : Store Data)
    (unreadable : Option String := none) : Except String Unit × MemProjection Data :=
  match unreadable with
  | some message => (.error message, projection)
  | none => projection.reset.putEach store.listAllRecords

/-- Two projections hold the same entries. -/
def Same (left right : MemProjection Data) : Prop :=
  ∀ key, left.entries.lookup key = right.entries.lookup key

/-- A projection holds the entries of a list of records and no others. -/
def Shows (projection : MemProjection Data) (records : List (Record Data)) : Prop :=
  ∀ name entry, projection.entries.lookup name = some entry ↔
    ∃ record ∈ records, name = key record.kind record.id ∧ entry = fromRecord record

theorem Same.symm {left right : MemProjection Data} (same : left.Same right) : right.Same left :=
  fun key => (same key).symm

theorem Shows.same {left right : MemProjection Data} {records : List (Record Data)}
    (leftShows : left.Shows records) (rightShows : right.Shows records) : left.Same right := by
  intro name
  apply Option.ext
  intro entry
  exact (leftShows name entry).trans (rightShows name entry).symm

theorem Shows.of_same {left right : MemProjection Data} {records : List (Record Data)}
    (shows : left.Shows records) (same : left.Same right) : right.Shows records := by
  intro name entry
  rw [← same name]
  exact shows name entry

theorem Shows.of_perm {projection : MemProjection Data} {records others : List (Record Data)}
    (shows : projection.Shows records) (perm : records.Perm others) :
    projection.Shows others := by
  intro name entry
  rw [shows name entry]
  constructor
  · rintro ⟨record, isThere, rest⟩
    exact ⟨record, perm.mem_iff.mp isThere, rest⟩
  · rintro ⟨record, isThere, rest⟩
    exact ⟨record, perm.mem_iff.mpr isThere, rest⟩

theorem shows_nil : ({} : MemProjection Data).Shows [] := by
  intro name entry
  simp

/-- Putting an entry whose key is not held adds it. -/
theorem put_of_absent {projection : MemProjection Data} {entry : Entry Data}
    (identified : entry.kind ≠ "" ∧ entry.id ≠ "")
    (absent : projection.get entry.kind entry.id = none) :
    projection.put entry =
      (.ok (), { entries := projection.entries.insert (key entry.kind entry.id) entry }) := by
  rw [get] at absent
  simp [put, identified.1, identified.2, absent]

/-- Putting an entry of other content over one that is not newer replaces it. -/
theorem put_of_held {projection : MemProjection Data} {entry existing : Entry Data}
    (identified : entry.kind ≠ "" ∧ entry.id ≠ "")
    (held : projection.get entry.kind entry.id = some existing)
    (other : existing.hash ≠ entry.hash) (newer : existing.revision ≤ entry.revision) :
    projection.put entry =
      (.ok (), { entries := projection.entries.insert (key entry.kind entry.id) entry }) := by
  rw [get] at held
  simp [put, identified.1, identified.2, held, other, not_lt.mpr newer]

theorem Shows.insert {projection : MemProjection Data} {records : List (Record Data)}
    {record : Record Data} (shows : projection.Shows records)
    (absent : ∀ other ∈ records, key other.kind other.id ≠ key record.kind record.id) :
    Shows { entries := projection.entries.insert (key record.kind record.id) (fromRecord record) }
      (record :: records) := by
  intro name entry
  by_cases isKey : name = key record.kind record.id
  · subst isKey
    rw [AList.lookup_insert]
    constructor
    · intro isEntry
      exact ⟨record, by simp, rfl, (Option.some.inj isEntry).symm⟩
    · rintro ⟨other, isThere, sameKey, rfl⟩
      rcases List.mem_cons.mp isThere with rfl | later
      · rfl
      · exact absurd sameKey.symm (absent other later)
  · rw [AList.lookup_insert_ne isKey, shows name entry]
    constructor
    · rintro ⟨other, isThere, rest⟩
      exact ⟨other, by simp [isThere], rest⟩
    · rintro ⟨other, isThere, sameKey, isEntry⟩
      rcases List.mem_cons.mp isThere with rfl | later
      · exact absurd sameKey isKey
      · exact ⟨other, later, sameKey, isEntry⟩

/-- Records with distinct keys are all put, and the projection then shows them as well. -/
theorem putEach_shows {records shown : List (Record Data)} {projection : MemProjection Data}
    (shows : projection.Shows shown)
    (identified : ∀ record ∈ records, record.kind ≠ "" ∧ record.id ≠ "")
    (distinct : (shown.reverse ++ records).Pairwise fun left right =>
      key left.kind left.id ≠ key right.kind right.id) :
    (projection.putEach records).1 = .ok () ∧
      (projection.putEach records).2.Shows (records.reverse ++ shown) := by
  induction records generalizing projection shown with
  | nil => exact ⟨rfl, by simpa [putEach] using shows⟩
  | cons record rest ih =>
      have fresh : ∀ other ∈ shown, key other.kind other.id ≠ key record.kind record.id := by
        intro other isShown
        exact (List.pairwise_append.mp distinct).2.2 other (by simpa using isShown) record (by simp)
      have absent : projection.get record.kind record.id = none := by
        by_contra present
        rcases Option.ne_none_iff_exists'.mp present with ⟨entry, isEntry⟩
        rcases (shows _ _).mp isEntry with ⟨other, isShown, sameKey, _⟩
        exact fresh other isShown sameKey.symm
      have identifiedNow : (fromRecord record).kind ≠ "" ∧ (fromRecord record).id ≠ "" :=
        identified record (by simp)
      have step := put_of_absent identifiedNow absent
      have next := ih (shows.insert fresh)
        (fun later isLater => identified later (by simp [isLater])) (by simpa using distinct)
      simp only [putEach, step]
      simpa using next

end MemProjection

/-- The kind and the id of a record are identifiers, as validation asks. -/
def Record.Identified (record : Record Data) : Prop :=
  V1.requireIdentifier "kind" record.kind = .ok () ∧ V1.requireIdentifier "id" record.id = .ok ()

/-- The path of a record of a kind and id. -/
def Layout.fileOf (kind id : String) : String := kind ++ "/" ++ id ++ ".json"

/-- Each file of the store lies where its record says. The store writes only such files. -/
def Store.Keyed (store : Store Data) : Prop :=
  ∀ path record, store.files.lookup path = some record →
    record.Identified ∧ path = Layout.fileOf record.kind record.id

/-- The records of a store, in the order of its files. -/
def Store.records (store : Store Data) : List (Record Data) :=
  store.files.entries.map Sigma.snd

namespace Record.Identified

variable {record other : Record Data}

theorem nonempty (identified : record.Identified) : record.kind ≠ "" ∧ record.id ≠ "" := by
  rcases identified with ⟨kindOk, idOk⟩
  constructor
  · intro isEmpty
    rw [V1.requireIdentifier, if_pos isEmpty] at kindOk
    simp at kindOk
  · intro isEmpty
    rw [V1.requireIdentifier, if_pos isEmpty] at idOk
    simp at idOk

/-- The kind of an identified record holds neither separator. -/
theorem kind_solid (identified : record.Identified) :
    '/' ∉ record.kind.toList ∧ Char.ofNat 0 ∉ record.kind.toList := by
  have segment := Layout.safeSegment_of_identifier identified.1 "kind"
  rw [Layout.safeSegment] at segment
  split at segment
  · simp at segment
  · split at segment
    · simp at segment
    · split at segment
      · simp at segment
      · rename_i clean
        simp only [not_or] at clean
        exact ⟨clean.1, clean.2.2⟩

/-- A projection key determines the kind and the id. -/
theorem eq_of_key (identified : record.Identified) (otherIdentified : other.Identified)
    (same : key record.kind record.id = key other.kind other.id) :
    record.kind = other.kind ∧ record.id = other.id :=
  Go.append_separator_inj identified.kind_solid.2 otherIdentified.kind_solid.2 same

/-- A path determines the kind and the id. -/
theorem eq_of_fileOf (identified : record.Identified) (otherIdentified : other.Identified)
    (same : Layout.fileOf record.kind record.id = Layout.fileOf other.kind other.id) :
    record.kind = other.kind ∧ record.id = other.id := by
  have stems : record.kind ++ String.ofList ['/'] ++ record.id =
      other.kind ++ String.ofList ['/'] ++ other.id :=
    (String.append_left_inj _).mp same
  exact Go.append_separator_inj identified.kind_solid.1 otherIdentified.kind_solid.1 stems

end Record.Identified

namespace Store

variable {store : Store Data}

theorem mem_records {record : Record Data} :
    record ∈ store.records ↔ ∃ path, store.files.lookup path = some record := by
  simp only [records, List.mem_map]
  constructor
  · rintro ⟨⟨path, held⟩, isThere, rfl⟩
    exact ⟨path, AList.mem_lookup_iff.mpr isThere⟩
  · rintro ⟨path, found⟩
    exact ⟨⟨path, record⟩, AList.mem_lookup_iff.mp found, rfl⟩

namespace Keyed

theorem mem_records (keyed : store.Keyed) {record : Record Data} (isThere : record ∈ store.records) :
    record.Identified ∧
      store.files.lookup (Layout.fileOf record.kind record.id) = some record := by
  rcases Store.mem_records.mp isThere with ⟨path, found⟩
  rcases keyed path record found with ⟨identified, rfl⟩
  exact ⟨identified, found⟩

/-- Different records of the store have different keys. -/
theorem distinct (keyed : store.Keyed) :
    store.records.Pairwise fun left right =>
      key left.kind left.id ≠ key right.kind right.id := by
  have paths : store.files.entries.Pairwise fun left right => left.1 ≠ right.1 :=
    List.nodupKeys_iff_pairwise.mp store.files.nodupKeys
  refine List.pairwise_map.mpr (paths.imp_of_mem ?_)
  intro left right isLeft isRight pathNe sameKey
  have leftFound := keyed left.1 left.2 (AList.mem_lookup_iff.mpr isLeft)
  have rightFound := keyed right.1 right.2 (AList.mem_lookup_iff.mpr isRight)
  rcases leftFound.1.eq_of_key rightFound.1 sameKey with ⟨kindEq, idEq⟩
  exact pathNe (by rw [leftFound.2, rightFound.2, kindEq, idEq])

end Keyed

theorem listAllRecords_perm (store : Store Data) : store.listAllRecords.Perm store.records :=
  List.mergeSort_perm _ _

end Store

namespace MemProjection

/-- A rebuild from a keyed store succeeds and shows the records of the store. -/
theorem rebuild_shows {store : Store Data} (keyed : store.Keyed)
    (projection : MemProjection Data) :
    (projection.rebuild store none).1 = .ok () ∧
      (projection.rebuild store none).2.Shows store.records := by
  have perm := store.listAllRecords_perm
  have identified : ∀ record ∈ store.listAllRecords, record.kind ≠ "" ∧ record.id ≠ "" :=
    fun record isThere => (keyed.mem_records (perm.mem_iff.mp isThere)).1.nonempty
  have distinct : store.listAllRecords.Pairwise fun left right =>
      key left.kind left.id ≠ key right.kind right.id :=
    perm.symm.pairwise keyed.distinct fun different => different.symm
  rcases putEach_shows shows_nil identified (by simpa using distinct) with ⟨isOk, shows⟩
  refine ⟨isOk, shows.of_perm ?_⟩
  rw [List.append_nil]
  exact (List.reverse_perm _).trans perm

end MemProjection

end Aa.Memory
