import Aa.Library.JsonReader
import Aa.Memory.Store

/-!
# Canonical texts and dropped updates

The canonical form of a document, down to its characters, and the write that is skipped because
the hash of the canonical form is the stored one. Numbers go through a double and units of
strings that stand for no rune through U+FFFD, so documents that differ in nothing else have one
canonical form, and the second of them is taken for the first.
-/

namespace Aa.Memory

open Aa.Library Aa.Contracts JsonReader
open JsonText (Text Part)

namespace Canonical

/-- Deterministic JSON: compact and key-sorted. -/
def canonicalize (data : Text) : Except String (List Char) :=
  match parse data with
  | .error message => .error ("canonicalize: " ++ message)
  | .ok document => .ok (JsonTree.encode (goValue document))

/-- The digest of the canonical form. -/
def hashBytes (sha256Hex : List Char → String) (data : Text) : Except String String :=
  (canonicalize data).map sha256Hex

/-- The document of a text, and none if the text is not accepted. -/
def document (data : Text) : Option Document := (parse data).toOption

/-- Texts of documents that stand for one value. -/
def Same (first second : Text) : Prop :=
  ∃ value ∈ document first, ∃ other ∈ document second, SameValue value other

/-- Texts of documents that read as one value. -/
def Alike (first second : Text) : Prop :=
  ∃ value ∈ document first, ∃ other ∈ document second, ReadAlike value other

theorem document_of_canonicalize {data : Text} {text : List Char}
    (accepted : canonicalize data = .ok text) :
    ∃ value ∈ document data, JsonTree.encode (goValue value) = text := by
  unfold canonicalize at accepted
  cases parsed : parse data with
  | error message => simp [parsed] at accepted
  | ok value =>
      rw [parsed] at accepted
      refine ⟨value, ?_, Except.ok.inj accepted⟩
      simp [document, parsed, Except.toOption]

/-- Accepted texts have one canonical form exactly if they read as one value. -/
theorem canonicalize_eq_iff {first second : Text} {text other : List Char}
    (firstOk : canonicalize first = .ok text) (secondOk : canonicalize second = .ok other) :
    text = other ↔ Alike first second := by
  rcases document_of_canonicalize firstOk with ⟨value, isValue, rfl⟩
  rcases document_of_canonicalize secondOk with ⟨last, isLast, rfl⟩
  rw [JsonTree.encode_inj, goValue_eq_iff]
  constructor
  · intro alike
    exact ⟨value, isValue, last, isLast, alike⟩
  · rintro ⟨_, isFirst, _, isSecond, alike⟩
    cases isFirst.symm.trans isValue
    cases isSecond.symm.trans isLast
    exact alike

end Canonical

/-! ## Writing by hash -/

namespace Record

variable {Data : Type}

/-- `Validate`, with the hash of data given. -/
def validateWith (hashBytes : Data → Except String String) (record : Record Data) :
    Except String Unit :=
  match V1.requireIdentifier "kind" record.kind with
  | .error message => .error message
  | .ok () =>
      match V1.requireIdentifier "id" record.id with
      | .error message => .error message
      | .ok () =>
          if record.revision < 0 then .error "revision: must be >= 0"
          else
            match hashBytes record.data with
            | .error message => .error message
            | .ok hash =>
                if hash ≠ record.hash then .error "hash: does not match data" else .ok ()

theorem validateWith_codec (codec : Codec Data) (record : Record Data) :
    record.validateWith codec.hashBytes = record.validate codec := rfl

theorem hash_of_validateWith {hashBytes : Data → Except String String} {record : Record Data}
    (valid : record.validateWith hashBytes = .ok ()) :
    hashBytes record.data = .ok record.hash := by
  unfold validateWith at valid
  split at valid
  · cases valid
  · split at valid
    · cases valid
    · split_ifs at valid
      split at valid
      · cases valid
      · rename_i hash isHash
        split_ifs at valid with differs
        rw [isHash, not_not.mp differs]

end Record

namespace Store

variable {Data : Type} (hashBytes : Data → Except String String) (compact : Data → Data)

/-- `PutRecord`, with the hash of data and the form in which data is stored given. -/
def putRecordWith (store : Store Data) (record : Record Data) : Except String Bool × Store Data :=
  match record.validateWith hashBytes with
  | .error message => (.error message, store)
  | .ok () =>
      match Layout.recordPath record.kind record.id with
      | .error message => (.error message, store)
      | .ok path =>
          let stored := { record with data := compact record.data }
          match store.files.lookup path with
          | some existing =>
              if existing.hash = record.hash then (.ok false, store)
              else if record.revision ≤ existing.revision then
                (.error (staleMessage record existing), store)
              else (.ok true, { files := store.files.insert path stored })
          | none => (.ok true, { files := store.files.insert path stored })

theorem putRecordWith_codec (codec : Codec Data) :
    putRecordWith codec.hashBytes codec.compact = putRecord codec := rfl

/-- The store after records are put one after the other. -/
def putAllWith (records : List (Record Data)) : Store Data :=
  records.foldl (fun store record => (putRecordWith hashBytes compact store record).2) {}

/-- The file at a path is what a valid record leaves there. -/
structure Holds (store : Store Data) (path : String) (record : Record Data) : Prop where
  valid : record.validateWith hashBytes = .ok ()
  isPath : Layout.recordPath record.kind record.id = .ok path
  isFile : store.files.lookup path = some { record with data := compact record.data }

/-- What putting a record does: it is refused or dropped, or its file is written. -/
theorem putRecordWith_cases (store : Store Data) (record : Record Data) :
    (putRecordWith hashBytes compact store record).2 = store ∨
      ∃ path, record.validateWith hashBytes = .ok () ∧
        Layout.recordPath record.kind record.id = .ok path ∧
        (putRecordWith hashBytes compact store record).2 =
          { files := store.files.insert path { record with data := compact record.data } } := by
  unfold putRecordWith
  split
  · exact .inl rfl
  · rename_i valid
    split
    · exact .inl rfl
    · rename_i path isPath
      dsimp only
      split
      · split_ifs
        · exact .inl rfl
        · exact .inl rfl
        · exact .inr ⟨path, valid, isPath, rfl⟩
      · exact .inr ⟨path, valid, isPath, rfl⟩

variable {hashBytes compact}

/-- A record is dropped for the file at its path, which has its hash. -/
theorem of_dropped {store : Store Data} {record : Record Data}
    (dropped : (putRecordWith hashBytes compact store record).1 = .ok false) :
    record.validateWith hashBytes = .ok () ∧ ∃ path existing,
      Layout.recordPath record.kind record.id = .ok path ∧
        store.files.lookup path = some existing ∧ existing.hash = record.hash := by
  unfold putRecordWith at dropped
  split at dropped
  · cases dropped
  · rename_i valid
    split at dropped
    · cases dropped
    · rename_i path isPath
      dsimp only at dropped
      split at dropped
      · rename_i existing isFile
        split_ifs at dropped with sameHash
        · exact ⟨valid, path, existing, isPath, isFile, sameHash⟩
        · cases dropped
      · cases dropped

/-- In a reached store, every file is what one of the records left there. -/
theorem holds_of_lookup {records : List (Record Data)} {path : String} {existing : Record Data}
    (isFile : (putAllWith hashBytes compact records).files.lookup path = some existing) :
    ∃ record ∈ records,
      (putAllWith hashBytes compact records).Holds hashBytes compact path record := by
  induction records using List.reverseRecOn generalizing existing with
  | nil => simp [putAllWith] at isFile
  | append_singleton records last ih =>
      have isNext : putAllWith hashBytes compact (records ++ [last]) =
          (putRecordWith hashBytes compact (putAllWith hashBytes compact records) last).2 := by
        simp [putAllWith]
      rw [isNext] at isFile ⊢
      have earlier : (putAllWith hashBytes compact records).files.lookup path = some existing →
          ∃ record ∈ records,
            (putAllWith hashBytes compact records).Holds hashBytes compact path record :=
        fun isFile => ih isFile
      rcases putRecordWith_cases hashBytes compact (putAllWith hashBytes compact records) last with
        unchanged | ⟨target, valid, isTarget, written⟩
      · rw [unchanged] at isFile ⊢
        rcases earlier isFile with ⟨record, isRecord, holds⟩
        exact ⟨record, List.mem_append_left _ isRecord, holds⟩
      · rw [written] at isFile ⊢
        by_cases isLast : path = target
        · subst isLast
          refine ⟨last, by simp, valid, isTarget, ?_⟩
          simp
        · rw [AList.lookup_insert_ne isLast] at isFile
          rcases earlier isFile with ⟨record, isRecord, holds⟩
          refine ⟨record, List.mem_append_left _ isRecord, holds.valid, holds.isPath, ?_⟩
          rw [AList.lookup_insert_ne isLast]
          exact holds.isFile

end Store

namespace Canonical

variable {sha256Hex : List Char → String}

/-- Records of one hash have data of one canonical form. -/
theorem alike_of_hash (collisionFree : Function.Injective sha256Hex) {record other : Record Text}
    (valid : record.validateWith (hashBytes sha256Hex) = .ok ())
    (otherValid : other.validateWith (hashBytes sha256Hex) = .ok ())
    (sameHash : record.hash = other.hash) : Alike record.data other.data := by
  have isHash := Record.hash_of_validateWith valid
  have otherHash := Record.hash_of_validateWith otherValid
  unfold hashBytes at isHash otherHash
  cases canonical : canonicalize record.data with
  | error message => simp [canonical, Except.map] at isHash
  | ok text =>
      cases otherCanonical : canonicalize other.data with
      | error message => simp [otherCanonical, Except.map] at otherHash
      | ok otherText =>
          rw [canonical] at isHash
          rw [otherCanonical] at otherHash
          refine (canonicalize_eq_iff canonical otherCanonical).mp (collisionFree ?_)
          rw [Except.ok.inj isHash, Except.ok.inj otherHash, sameHash]

/-- An update that is dropped reads as the record that the store holds. -/
theorem alike_of_dropped (collisionFree : Function.Injective sha256Hex) {compact : Text → Text}
    {store : Store Text} {path : String} {previous record : Record Text}
    (holds : store.Holds (hashBytes sha256Hex) compact path previous)
    (isPath : Layout.recordPath record.kind record.id = .ok path)
    (dropped : (store.putRecordWith (hashBytes sha256Hex) compact record).1 = .ok false) :
    Alike previous.data record.data := by
  rcases Store.of_dropped dropped with ⟨valid, target, existing, isTarget, isFile, sameHash⟩
  cases isTarget.symm.trans isPath
  cases isFile.symm.trans holds.isFile
  exact alike_of_hash collisionFree holds.valid valid sameHash

/-- In every run of puts, an update is dropped only for an earlier record that reads as it. -/
theorem exists_alike_of_dropped (collisionFree : Function.Injective sha256Hex)
    {compact : Text → Text} {records : List (Record Text)} {record : Record Text}
    (dropped : ((Store.putAllWith (hashBytes sha256Hex) compact records).putRecordWith
      (hashBytes sha256Hex) compact record).1 = .ok false) :
    ∃ previous ∈ records, Alike previous.data record.data := by
  rcases Store.of_dropped dropped with ⟨-, path, existing, isPath, isFile, -⟩
  rcases Store.holds_of_lookup isFile with ⟨previous, isPrevious, holds⟩
  exact ⟨previous, isPrevious, alike_of_dropped collisionFree holds isPath dropped⟩

/-- Two texts are kept apart: their canonical forms are the same exactly if their values are, and
no run of puts drops the second for the first otherwise. -/
structure Lossless (sha256Hex : List Char → String) (first second : Text) : Prop where
  canonical : canonicalize first = canonicalize second ↔ Same first second
  kept : ∀ (compact : Text → Text) (records : List (Record Text)) (path : String)
    (previous record : Record Text),
    (Store.putAllWith (hashBytes sha256Hex) compact records).Holds (hashBytes sha256Hex) compact
      path previous →
    Layout.recordPath record.kind record.id = .ok path →
    previous.data = first → record.data = second →
    ((Store.putAllWith (hashBytes sha256Hex) compact records).putRecordWith
      (hashBytes sha256Hex) compact record).1 = .ok false →
    Same first second

/-- Accepted texts are kept apart exactly if they read as one value when they are one. -/
theorem lossless_iff (collisionFree : Function.Injective sha256Hex) {first second : Text}
    (firstOk : (canonicalize first).isOk = true) (secondOk : (canonicalize second).isOk = true) :
    Lossless sha256Hex first second ↔ (Alike first second ↔ Same first second) := by
  have canonical_iff : canonicalize first = canonicalize second ↔ Alike first second := by
    cases isFirst : canonicalize first with
    | error message => rw [isFirst] at firstOk; cases firstOk
    | ok text =>
        cases isSecond : canonicalize second with
        | error message => rw [isSecond] at secondOk; cases secondOk
        | ok other => rw [Except.ok.injEq, canonicalize_eq_iff isFirst isSecond]
  constructor
  · intro lossless
    rw [← canonical_iff]
    exact lossless.canonical
  · intro toldApart
    refine ⟨canonical_iff.trans toldApart, ?_⟩
    rintro compact records path previous record holds isPath rfl rfl dropped
    exact toldApart.mp (alike_of_dropped collisionFree holds isPath dropped)

/-- Exact documents are kept apart. -/
theorem alike_iff_same_of_exact {first second : Text}
    {value other : Document} (isValue : value ∈ document first) (isOther : other ∈ document second)
    (valueExact : Exact value) (otherExact : Exact other) :
    Alike first second ↔ Same first second := by
  constructor
  · rintro ⟨_, isFirst, _, isSecond, alike⟩
    cases isFirst.symm.trans isValue
    cases isSecond.symm.trans isOther
    exact ⟨_, isValue, _, isOther, (readAlike_iff_sameValue valueExact otherExact).mp alike⟩
  · rintro ⟨_, isFirst, _, isSecond, same⟩
    cases isFirst.symm.trans isValue
    cases isSecond.symm.trans isOther
    exact ⟨_, isValue, _, isOther, (readAlike_iff_sameValue valueExact otherExact).mpr same⟩

/-- Two of the integers beyond 2 ^ 53, where doubles are two apart. -/
def evenInteger : Text := Text.of "9007199254740992"

def oddInteger : Text := Text.of "9007199254740993"

theorem lossless_iff_integers :
    Lossless String.ofList evenInteger oddInteger ↔
      (Alike evenInteger oddInteger ↔ Same evenInteger oddInteger) :=
  lossless_iff (fun _ _ => String.ofList_injective) (by decide +kernel) (by decide +kernel)

/-- A record of an issue, with the digest that both integers have. -/
def integerRecord (revision : ℤ) (data : Text) : Record Text :=
  { kind := "issue", id := "iss_1", revision := revision, data := data, hash := "9007199254740992" }

/-- The update to the odd integer is dropped: both have the canonical form of the even one. -/
theorem oddInteger_taken_for_even :
    canonicalize evenInteger = .ok "9007199254740992".toList ∧
      canonicalize oddInteger = .ok "9007199254740992".toList ∧
      ((Store.putAllWith (hashBytes String.ofList) id [integerRecord 1 evenInteger]).putRecordWith
        (hashBytes String.ofList) id (integerRecord 2 oddInteger)).1 = .ok false ∧
      ¬ Lossless String.ofList evenInteger oddInteger := by
  have sameForm : canonicalize evenInteger = canonicalize oddInteger := by decide +kernel
  refine ⟨by decide +kernel, by decide +kernel, by decide +kernel, ?_⟩
  intro lossless
  rcases lossless.canonical.mp sameForm with ⟨value, isValue, other, isOther, same⟩
  have even : (document evenInteger).map exactNumber = some (some 9007199254740992) := by
    decide +kernel
  have odd : (document oddInteger).map exactNumber = some (some 9007199254740993) := by
    decide +kernel
  rw [Option.mem_def.mp isValue, Option.map_some, Option.some.injEq] at even
  rw [Option.mem_def.mp isOther, Option.map_some, Option.some.injEq] at odd
  have numbers := same.exactNumber_eq
  rw [even, odd] at numbers
  simp at numbers

end Canonical

end Aa.Memory
