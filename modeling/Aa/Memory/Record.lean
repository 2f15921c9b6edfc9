import Aa.Contracts.V1

/-!
# Canonical records

A record is a materialized contract object: its identity, its revision, its data and
the SHA-256 of the canonical form of the data. The data is generic, and what Go's
standard library does with it is a parameter.
-/

namespace Aa.Memory

open Aa.Library Aa.Contracts

/-- JSON and SHA-256 on the bytes of a record: `json.Unmarshal` into an `any`,
`json.Marshal` of a value, the compaction `json.Marshal` applies to raw data, and the
lowercase hex digest. -/
structure Codec (Data : Type) where
  unmarshal : Data → Except String Json
  marshal : Json → Data
  compact : Data → Data
  sha256Hex : Data → String

variable {Data : Type} (codec : Codec Data)

namespace Codec

/-- Deterministic JSON: compact and key-sorted. -/
def canonicalize (data : Data) : Except String Data :=
  match codec.unmarshal data with
  | .error message => .error ("canonicalize: " ++ message)
  | .ok value => .ok (codec.marshal value)

/-- The lowercase SHA-256 hex of canonicalized bytes. -/
def hashBytes (data : Data) : Except String String :=
  (codec.canonicalize data).map codec.sha256Hex

end Codec

/-- A canonical, materialized contract object. -/
structure Record (Data : Type) where
  kind : String
  id : String
  revision : ℤ
  data : Data
  hash : String
deriving DecidableEq

namespace Record

/-- Checks the envelope of a record and recomputes its hash. -/
def validate (record : Record Data) : Except String Unit :=
  match V1.requireIdentifier "kind" record.kind with
  | .error message => .error message
  | .ok () =>
      match V1.requireIdentifier "id" record.id with
      | .error message => .error message
      | .ok () =>
          if record.revision < 0 then .error "revision: must be >= 0"
          else
            match codec.hashBytes record.data with
            | .error message => .error message
            | .ok hash =>
                if hash ≠ record.hash then .error "hash: does not match data" else .ok ()

/-- The record as it is read back from the file it is written to. -/
def stored (record : Record Data) : Record Data :=
  { record with data := codec.compact record.data }

@[simp]
theorem stored_hash (record : Record Data) : (record.stored codec).hash = record.hash := rfl

@[simp]
theorem stored_revision (record : Record Data) :
    (record.stored codec).revision = record.revision := rfl

variable {codec}

theorem identifiers_of_validate {record : Record Data}
    (valid : record.validate codec = .ok ()) :
    V1.requireIdentifier "kind" record.kind = .ok () ∧
      V1.requireIdentifier "id" record.id = .ok () := by
  unfold validate at valid
  split at valid
  · simp at valid
  · rename_i kindOk
    split at valid
    · simp at valid
    · rename_i idOk
      exact ⟨kindOk, idOk⟩

end Record

/-- The provenance block `RequireProvenance` decodes. -/
structure ProvenanceBlock where
  source : String := ""
  producedAt : String := ""

/-- The wrapper around the provenance block. -/
structure ProvenanceWrapper where
  provenance : Option ProvenanceBlock := none

def decodeProvenance : GoJson.Decoder ProvenanceWrapper :=
  GoJson.struct "struct"
    [GoJson.field "provenance"
      (GoJson.pointer {}
        (GoJson.struct "store.provenance"
          [GoJson.field "source" GoJson.string (·.source)
              (fun block value => { block with source := value }),
            GoJson.field "producedAt" GoJson.string (·.producedAt)
              (fun block value => { block with producedAt := value })]))
      (·.provenance) (fun wrapper value => { wrapper with provenance := value })]

/-- Requires and validates the provenance block of a record's data. -/
def requireProvenance (data : Data) : Except String Unit :=
  match (codec.unmarshal data).bind fun value => decodeProvenance value {} with
  | .error message => .error message
  | .ok wrapper =>
      match wrapper.provenance with
      | none => .error "provenance: is required"
      | some block =>
          if block.source = "" then .error "provenance.source: is required"
          else if GoTime.parsesRFC3339 block.producedAt then .ok ()
          else .error ("provenance.producedAt: parsing time " ++ Go.quote block.producedAt)

end Aa.Memory
