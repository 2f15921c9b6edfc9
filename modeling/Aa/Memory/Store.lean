import Aa.Memory.Record

/-!
# The record store

One file per record under a portable layout, written atomically, so that a file holds
either nothing or a whole record. Writing a record is idempotent for the same content
and rejects a stale revision.
-/

namespace Aa.Memory

open Aa.Library Aa.Contracts

namespace Layout

/-- The characters of a path segment after its first. -/
def isSegmentChar (c : Char) : Bool :=
  c.isAlphanum || c == '_' || c == '.' || c == ':' || c == '@' || c == '+' || c == '-'

/-- `segmentRE`. -/
def matchesSegment (value : String) : Bool :=
  match value.toList with
  | [] => false
  | first :: rest => first.isAlphanum && rest.all isSegmentChar

/-- Rejects empty, traversal, and separator-bearing path segments. -/
def safeSegment (field value : String) : Except String Unit :=
  if value = "" then .error (field ++ ": is required")
  else if value = "." ∨ value = ".." then
    .error (field ++ ": invalid segments " ++ Go.quote value)
  else if '/' ∈ value.toList ∨ '\\' ∈ value.toList ∨ Char.ofNat 0 ∈ value.toList then
    .error (field ++ ": path separators are not allowed")
  else if matchesSegment value then .ok ()
  else .error (field ++ ": invalid segment " ++ Go.quote value)

/-- The path of a record below the records root, rejecting path traversal. -/
def recordPath (kind id : String) : Except String String :=
  match safeSegment "kind" kind with
  | .error message => .error message
  | .ok () =>
      match safeSegment "id" id with
      | .error message => .error message
      | .ok () => .ok (kind ++ "/" ++ id ++ ".json")

theorem safeSegment_of_identifier {field value : String}
    (identifier : V1.requireIdentifier field value = .ok ()) (segment : String) :
    safeSegment segment value = .ok () := by
  unfold V1.requireIdentifier at identifier
  split at identifier
  · simp at identifier
  · rename_i nonempty
    split at identifier
    · simp at identifier
    · rename_i matching
      simp only [gt_iff_lt, not_or, Bool.not_eq_false] at matching
      rcases matching with ⟨_, matching⟩
      unfold V1.matchesIdentifier at matching
      cases chars : value.toList with
      | nil => simp [chars] at matching
      | cons first rest =>
          simp only [chars, Bool.and_eq_true, V1.isIdentifierStart] at matching
          rcases matching with ⟨startOk, restOk⟩
          have noDot : first ≠ '.' := by
            rintro rfl
            exact absurd startOk (by decide)
          have allOk : ∀ c ∈ value.toList, V1.isIdentifierChar c = true := by
            intro c charMem
            rw [chars] at charMem
            rcases List.mem_cons.mp charMem with rfl | later
            · simp [V1.isIdentifierChar, startOk]
            · exact List.all_eq_true.mp restOk c later
          have noDots : ¬ (value = "." ∨ value = "..") := by
            rintro (rfl | rfl)
            · exact noDot (List.cons.inj (chars.symm.trans (by decide : _ = ['.']))).1
            · exact noDot (List.cons.inj (chars.symm.trans (by decide : _ = ['.', '.']))).1
          have noSeparator : ¬ ('/' ∈ value.toList ∨ '\\' ∈ value.toList ∨
              Char.ofNat 0 ∈ value.toList) := by
            rintro (slash | backslash | zero)
            · exact absurd (allOk _ slash) (by decide)
            · exact absurd (allOk _ backslash) (by decide)
            · exact absurd (allOk _ zero) (by decide)
          have segmentOk : matchesSegment value = true := by
            simp only [matchesSegment, chars, Bool.and_eq_true]
            exact ⟨startOk, restOk⟩
          simp only [safeSegment, if_neg nonempty, if_neg noDots, if_neg noSeparator, segmentOk,
            if_true]

end Layout

/-- The record files of a store, by path. -/
structure Store (Data : Type) where
  files : GoMap String (Record Data) := ∅

/-- Ingestion policy. -/
structure IngestOptions where
  requireProvenance : Bool := false

/-- Ingestion counts. -/
structure IngestResult where
  new : ℕ := 0
  unchanged : ℕ := 0

variable {Data : Type} (codec : Codec Data)

namespace Store

/-- The stale revision error of `PutRecord`. -/
def staleMessage (record existing : Record Data) : String :=
  "record " ++ record.kind ++ "/" ++ record.id ++ ": stale revision " ++
    Go.itoa record.revision ++ " (have " ++ Go.itoa existing.revision ++ ")"

/-- Writes a record; the flag reports whether the store changed. -/
def putRecord (store : Store Data) (record : Record Data) : Except String Bool × Store Data :=
  match record.validate codec with
  | .error message => (.error message, store)
  | .ok () =>
      match Layout.recordPath record.kind record.id with
      | .error message => (.error message, store)
      | .ok path =>
          match store.files.lookup path with
          | some existing =>
              if existing.hash = record.hash then (.ok false, store)
              else if record.revision ≤ existing.revision then
                (.error (staleMessage record existing), store)
              else (.ok true, { files := store.files.insert path (record.stored codec) })
          | none => (.ok true, { files := store.files.insert path (record.stored codec) })

/-- Reads a record by kind and id; none is `ErrNotFound`. -/
def getRecord (store : Store Data) (kind id : String) : Except String (Option (Record Data)) :=
  (Layout.recordPath kind id).map store.files.lookup

def ingestFrom (options : IngestOptions) (store : Store Data) (result : IngestResult) :
    List (Record Data) → IngestResult × Option String × Store Data
  | [] => (result, none, store)
  | record :: rest =>
      match if options.requireProvenance then requireProvenance codec record.data else .ok () with
      | .error message =>
          (result, some ("record " ++ record.kind ++ "/" ++ record.id ++ ": " ++ message), store)
      | .ok () =>
          match store.putRecord codec record with
          | (.error message, store) => (result, some message, store)
          | (.ok true, store) =>
              ingestFrom options store { result with new := result.new + 1 } rest
          | (.ok false, store) =>
              ingestFrom options store { result with unchanged := result.unchanged + 1 } rest

/-- Ingests records until the first error; the counts say how many went through. -/
def ingestRecords (store : Store Data) (records : List (Record Data)) (options : IngestOptions) :
    IngestResult × Option String × Store Data :=
  ingestFrom codec options store {} records

/-- A caller that ignores errors: it goes on after the record a batch stopped at. -/
def ingestIgnoring (store : Store Data) (records : List (Record Data))
    (options : IngestOptions) : Store Data :=
  match store.ingestRecords codec records options with
  | (_, none, store) => store
  | (result, some _, store) =>
      match remaining : records.drop (result.new + result.unchanged) with
      | [] => store
      | _ :: rest =>
          have : rest.length < records.length := by
            have dropped := congrArg List.length remaining
            simp only [List.length_drop, List.length_cons] at dropped
            omega
          ingestIgnoring store rest options
termination_by records.length

/-- Writes records one after another, ignoring errors. -/
def putAll (store : Store Data) (records : List (Record Data)) : Store Data :=
  records.foldl (fun store record => (store.putRecord codec record).2) store

end Store

end Aa.Memory
