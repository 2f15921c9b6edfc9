import Aa.Library.LineScanner
import Aa.Memory.Facade

/-!
# The event log on disk

The event log is a file to which canonical events are appended, one on each line, and
which is read with a line scanner of bounded size. What the log means is a journal: the
events in the order of their first append, and the retention floor. The file keeps up
with the journal as long as no event of a new id is longer than the scanner reads; the
first such event makes every later read fail.
-/

namespace Aa.Memory

open Aa.Library LineScanner

/-- One entry in the event log. -/
structure EventRecord where
  id : String
  sequence : ℤ
  data : Bytes
deriving DecidableEq

/-- The event log, the retention file and the ids that are loaded. -/
structure EventFile where
  log : Bytes := []
  floor : Option ℤ := none
  seen : List String := []

namespace EventFile

/-- The size of the scanner's buffer. -/
def maxTokenSize : ℕ := 4 * 1024 * 1024

variable (codec : Codec Bytes)

/-- The entries of the lines that are not empty, up to the first that cannot be decoded. -/
def readLines : List Bytes → Except String (List EventRecord)
  | [] => .ok []
  | line :: rest =>
      if line.length = 0 then readLines rest
      else
        match probeOf codec line with
        | .error message => .error ("store: corrupt event log: " ++ message)
        | .ok probe =>
            (readLines rest).map ({ id := probe.id, sequence := probe.sequence, data := line } :: ·)

/-- Reads the raw event log without applying retention. -/
def allEvents (file : EventFile) : Except String (List EventRecord) :=
  let scanned := scan maxTokenSize file.log
  match readLines codec scanned.1 with
  | .error message => .error message
  | .ok events => if scanned.2 then .error "bufio.Scanner: token too long" else .ok events

/-- The event retention floor. Zero means no retention. -/
def retention (file : EventFile) : Except String ℤ :=
  match file.floor with
  | none => .ok 0
  | some floor =>
      if floor < 0 then .error ("store: invalid retention floor " ++ Go.itoa floor) else .ok floor

/-- The event log in insertion order, without events at or below the retention floor. -/
def events (file : EventFile) : Except String (List EventRecord) :=
  match file.allEvents codec with
  | .error message => .error message
  | .ok all =>
      match file.retention with
      | .error message => .error message
      | .ok floor => if floor ≤ 0 then .ok all else .ok (all.filter (floor < ·.sequence))

/-- The ids in the log, read from the file unless some are loaded. -/
def loadSeen (file : EventFile) : Except String (List String) :=
  if file.seen ≠ [] then .ok file.seen else (file.allEvents codec).map (·.map EventRecord.id)

/-- Appends a canonical event to the log. Duplicate ids are ignored. -/
def appendEvent (file : EventFile) (event : Bytes) : Except String Bool × EventFile :=
  match codec.canonicalize event with
  | .error message => (.error message, file)
  | .ok canonical =>
      match probeOf codec canonical with
      | .error message => (.error message, file)
      | .ok probe =>
          if probe.id = "" then (.error "event.id: is required", file)
          else
            match file.loadSeen codec with
            | .error message => (.error message, file)
            | .ok seen =>
                if probe.id ∈ seen then (.ok false, { file with seen := seen })
                else
                  (.ok true,
                    { file with log := file.log ++ written canonical, seen := probe.id :: seen })

/-- Sets the retention floor, which may only increase. -/
def retainAfter (file : EventFile) (sequence : ℤ) : Except String Unit × EventFile :=
  if sequence < 0 then (.error "retention: floor must be >= 0", file)
  else
    match file.retention with
    | .error message => (.error message, file)
    | .ok current =>
        if sequence < current then
          (.error ("retention: floor may only increase (have " ++ Go.itoa current ++ ", got " ++
            Go.itoa sequence ++ ")"), file)
        else if sequence = current then (.ok (), file)
        else (.ok (), { file with floor := some sequence })

/-- The store on the same files after it was opened again. -/
def reopen (file : EventFile) : EventFile := { file with seen := [] }

/-- A call of the store's event methods, or its reopening. -/
inductive Call where
  | appendEvent (event : Bytes)
  | retainAfter (sequence : ℤ)
  | events
  | reopen

/-- What a call returns. -/
inductive Answer where
  | appended (result : Except String Bool)
  | retained (result : Except String Unit)
  | read (result : Except String (List EventRecord))
  | reopened

def call (file : EventFile) : Call → EventFile × Answer
  | .appendEvent event => ((file.appendEvent codec event).2, .appended (file.appendEvent codec event).1)
  | .retainAfter sequence => ((file.retainAfter sequence).2, .retained (file.retainAfter sequence).1)
  | .events => (file, .read (file.events codec))
  | .reopen => (file.reopen, .reopened)

/-- The event methods as a machine. -/
def machine : Machine EventFile Call Answer where
  step := call codec

end EventFile

/-! ## The journal -/

/-- What an event log means: its events in order, and the retention floor. -/
structure Journal where
  records : List EventRecord := []
  floor : ℤ := 0

namespace Journal

open EventFile

variable (codec : Codec Bytes)

/-- The entry that an event makes. -/
def recordOf (event : Bytes) : Except String EventRecord :=
  match codec.canonicalize event with
  | .error message => .error message
  | .ok canonical =>
      match probeOf codec canonical with
      | .error message => .error message
      | .ok probe =>
          if probe.id = "" then .error "event.id: is required"
          else .ok { id := probe.id, sequence := probe.sequence, data := canonical }

def ids (journal : Journal) : List String := journal.records.map EventRecord.id

/-- Adds the entry of an event whose id is new. -/
def append (journal : Journal) (event : Bytes) : Except String Bool × Journal :=
  match recordOf codec event with
  | .error message => (.error message, journal)
  | .ok record =>
      if record.id ∈ journal.ids then (.ok false, journal)
      else (.ok true, { journal with records := journal.records ++ [record] })

/-- The entries above the floor; a floor of zero keeps all. -/
def visible (journal : Journal) : List EventRecord :=
  journal.records.filter fun record => journal.floor ≤ 0 || journal.floor < record.sequence

def retainAfter (journal : Journal) (sequence : ℤ) : Except String Unit × Journal :=
  if sequence < 0 then (.error "retention: floor must be >= 0", journal)
  else if sequence < journal.floor then
    (.error ("retention: floor may only increase (have " ++ Go.itoa journal.floor ++ ", got " ++
      Go.itoa sequence ++ ")"), journal)
  else (.ok (), { journal with floor := sequence })

def call (journal : Journal) : EventFile.Call → Journal × EventFile.Answer
  | .appendEvent event => ((journal.append codec event).2, .appended (journal.append codec event).1)
  | .retainAfter sequence =>
      ((journal.retainAfter sequence).2, .retained (journal.retainAfter sequence).1)
  | .events => (journal, .read (.ok journal.visible))
  | .reopen => (journal, .reopened)

/-- The journal as a machine. -/
def machine : Machine Journal EventFile.Call EventFile.Answer where
  step := call codec

/-- Whether an event of a new id is longer than the scanner reads. -/
def Overlong (journal : Journal) (event : Bytes) : Prop :=
  ∃ record, recordOf codec event = .ok record ∧ record.id ∉ journal.ids ∧
    maxTokenSize ≤ record.data.length

/-- Whether a call appends no event of a new id that is longer than the scanner reads. -/
def Fits (journal : Journal) : EventFile.Call → Prop
  | .appendEvent event => ¬ journal.Overlong codec event
  | _ => True

end Journal

namespace EventFile

/-- What a log promises of its journal: its ids are unique, it is read back as it was appended,
and an append, before and after the store is opened again, changes it for new ids only. -/
structure Complete (codec : Codec Bytes) (file : EventFile) (journal : Journal) : Prop where
  unique : journal.ids.Nodup
  reads : file.events codec = .ok journal.visible
  appends : ∀ event, (file.appendEvent codec event).1 = (journal.append codec event).1
  reopened : ∀ event, (file.reopen.appendEvent codec event).1 = (journal.append codec event).1

/-! ## What the calls do -/

/-- What is known of the text `json.Marshal` writes: it is never empty, and its only control
characters are escaped. -/
structure Plain (codec : Codec Bytes) : Prop where
  solid : ∀ value, Solid (codec.marshal value)
  nonempty : ∀ value, codec.marshal value ≠ []

variable {codec : Codec Bytes} {file : EventFile} {journal : Journal}

/-- An entry that the reader decodes to itself. -/
structure Readable (codec : Codec Bytes) (record : EventRecord) : Prop where
  solid : Solid record.data
  nonempty : record.data ≠ []
  probed : probeOf codec record.data = .ok { id := record.id, sequence := record.sequence }

theorem readable_of_recordOf (plain : Plain codec) {event : Bytes} {record : EventRecord}
    (isRecord : Journal.recordOf codec event = .ok record) : Readable codec record := by
  rw [Journal.recordOf] at isRecord
  cases isCanonical : codec.canonicalize event with
  | error message =>
      rw [isCanonical] at isRecord
      cases isRecord
  | ok canonical =>
      rw [isCanonical] at isRecord
      simp only at isRecord
      cases isProbe : probeOf codec canonical with
      | error message =>
          rw [isProbe] at isRecord
          cases isRecord
      | ok probe =>
          rw [isProbe] at isRecord
          simp only at isRecord
          split at isRecord
          · cases isRecord
          · cases isRecord
            rw [Codec.canonicalize] at isCanonical
            cases isValue : codec.unmarshal event with
            | error message =>
                rw [isValue] at isCanonical
                cases isCanonical
            | ok value =>
                rw [isValue] at isCanonical
                cases isCanonical
                exact ⟨plain.solid value, plain.nonempty value, isProbe⟩

theorem appendEvent_of_error {event : Bytes} {message : String}
    (fails : Journal.recordOf codec event = .error message) :
    file.appendEvent codec event = (.error message, file) := by
  rw [Journal.recordOf] at fails
  rw [appendEvent]
  cases isCanonical : codec.canonicalize event with
  | error other =>
      rw [isCanonical] at fails
      cases fails
      rfl
  | ok canonical =>
      rw [isCanonical] at fails
      simp only at fails ⊢
      cases isProbe : probeOf codec canonical with
      | error other =>
          rw [isProbe] at fails
          cases fails
          rfl
      | ok probe =>
          rw [isProbe] at fails
          simp only at fails ⊢
          split at fails
          · rename_i unnamed
            cases fails
            rw [if_pos unnamed]
          · cases fails

theorem appendEvent_of_record {event : Bytes} {record : EventRecord} {seen : List String}
    (isRecord : Journal.recordOf codec event = .ok record)
    (isSeen : file.loadSeen codec = .ok seen) :
    file.appendEvent codec event =
      if record.id ∈ seen then (.ok false, { file with seen := seen })
      else
        (.ok true, { file with log := file.log ++ written record.data, seen := record.id :: seen }) := by
  rw [Journal.recordOf] at isRecord
  rw [appendEvent]
  cases isCanonical : codec.canonicalize event with
  | error other =>
      rw [isCanonical] at isRecord
      cases isRecord
  | ok canonical =>
      rw [isCanonical] at isRecord
      simp only at isRecord ⊢
      cases isProbe : probeOf codec canonical with
      | error other =>
          rw [isProbe] at isRecord
          cases isRecord
      | ok probe =>
          rw [isProbe] at isRecord
          simp only at isRecord ⊢
          split at isRecord
          · cases isRecord
          · rename_i named
            cases isRecord
            rw [if_neg named, isSeen]

theorem readLines_data {records : List EventRecord}
    (readable : ∀ record ∈ records, Readable codec record) :
    readLines codec (records.map EventRecord.data) = .ok records := by
  induction records with
  | nil => rfl
  | cons record rest ih =>
      have here := readable record List.mem_cons_self
      have notEmpty : ¬ record.data.length = 0 := fun isZero =>
        here.nonempty (List.length_eq_zero_iff.mp isZero)
      rw [List.map_cons, readLines, if_neg notEmpty, here.probed,
        ih fun later isThere => readable later (List.mem_cons_of_mem record isThere)]
      rfl

/-- Whether a file holds a journal that the reader can read. -/
structure Holds (codec : Codec Bytes) (file : EventFile) (journal : Journal) : Prop where
  log : file.log = (journal.records.map EventRecord.data).flatMap written
  readable : ∀ record ∈ journal.records, Readable codec record
  short : ∀ record ∈ journal.records, record.data.length < maxTokenSize
  unique : journal.ids.Nodup
  seen : file.seen ≠ [] → ∀ id, id ∈ file.seen ↔ id ∈ journal.ids
  floor : file.retention = .ok journal.floor

namespace Holds

theorem empty : Holds codec {} {} where
  log := rfl
  readable _ isThere := by cases isThere
  short _ isThere := by cases isThere
  unique := List.nodup_nil
  seen loaded := absurd rfl loaded
  floor := rfl

/-- What the scanner makes of the log and of what stands after it. -/
theorem scan_log (holds : Holds codec file journal) (rest : Bytes) :
    scan maxTokenSize (file.log ++ rest) =
      (journal.records.map EventRecord.data ++ (scan maxTokenSize rest).1,
        (scan maxTokenSize rest).2) := by
  rw [holds.log]
  refine scan_written (fun line isLine => ?_) (fun line isLine => ?_) rest
  · rcases List.mem_map.mp isLine with ⟨record, recordMem, rfl⟩
    exact (holds.readable record recordMem).solid
  · rcases List.mem_map.mp isLine with ⟨record, recordMem, rfl⟩
    exact holds.short record recordMem

theorem allEvents (holds : Holds codec file journal) : file.allEvents codec = .ok journal.records := by
  have scanned := holds.scan_log []
  rw [List.append_nil] at scanned
  have isNil : scan maxTokenSize [] = ([], false) := rfl
  rw [isNil, List.append_nil] at scanned
  simp only [EventFile.allEvents, scanned, readLines_data holds.readable]
  rfl

theorem events (holds : Holds codec file journal) : file.events codec = .ok journal.visible := by
  simp only [EventFile.events, holds.allEvents, holds.floor, Journal.visible]
  by_cases isZero : journal.floor ≤ 0
  · simp [isZero]
  · simp [isZero]

theorem loadSeen (holds : Holds codec file journal) :
    ∃ seen, file.loadSeen codec = .ok seen ∧ ∀ id, id ∈ seen ↔ id ∈ journal.ids := by
  rw [EventFile.loadSeen]
  split
  · rename_i loaded
    exact ⟨file.seen, rfl, holds.seen loaded⟩
  · rw [holds.allEvents]
    exact ⟨journal.ids, rfl, fun _ => Iff.rfl⟩

theorem reopen (holds : Holds codec file journal) : Holds codec file.reopen journal where
  log := holds.log
  readable := holds.readable
  short := holds.short
  unique := holds.unique
  seen loaded := absurd rfl loaded
  floor := holds.floor

theorem appendEvent (holds : Holds codec file journal) (event : Bytes) :
    (file.appendEvent codec event).1 = (journal.append codec event).1 := by
  cases isRecord : Journal.recordOf codec event with
  | error message => simp only [appendEvent_of_error isRecord, Journal.append, isRecord]
  | ok record =>
      rcases holds.loadSeen with ⟨seen, isSeen, inJournal⟩
      simp only [appendEvent_of_record isRecord isSeen, Journal.append, isRecord, inJournal]
      split <;> rfl

/-- A file that holds a journal keeps all the promises. -/
theorem complete (holds : Holds codec file journal) : Complete codec file journal where
  unique := holds.unique
  reads := holds.events
  appends := holds.appendEvent
  reopened := holds.reopen.appendEvent

/-- An append of an event that is not too long is an append to the journal. -/
theorem append (holds : Holds codec file journal) (plain : Plain codec) {event : Bytes}
    (fits : ¬ journal.Overlong codec event) :
    Holds codec (file.appendEvent codec event).2 (journal.append codec event).2 := by
  cases isRecord : Journal.recordOf codec event with
  | error message =>
      simp only [appendEvent_of_error isRecord, Journal.append, isRecord]
      exact holds
  | ok record =>
      rcases holds.loadSeen with ⟨seen, isSeen, inJournal⟩
      simp only [appendEvent_of_record isRecord isSeen, Journal.append, isRecord, inJournal]
      by_cases isOld : record.id ∈ journal.ids
      · rw [if_pos isOld, if_pos isOld]
        exact { holds with seen := fun _ => inJournal }
      · rw [if_neg isOld, if_neg isOld]
        have isShort : record.data.length < maxTokenSize := by
          by_contra long
          exact fits ⟨record, isRecord, isOld, Nat.le_of_not_lt long⟩
        refine ⟨?_, ?_, ?_, ?_, ?_, holds.floor⟩
        · simp [holds.log]
        · intro other isThere
          rcases List.mem_append.mp isThere with isBefore | isNew
          · exact holds.readable other isBefore
          · cases List.mem_singleton.mp isNew
            exact readable_of_recordOf plain isRecord
        · intro other isThere
          rcases List.mem_append.mp isThere with isBefore | isNew
          · exact holds.short other isBefore
          · cases List.mem_singleton.mp isNew
            exact isShort
        · simp only [Journal.ids, List.map_append, List.map_cons, List.map_nil]
          exact holds.unique.append (List.nodup_singleton _)
            (List.disjoint_singleton.mpr isOld)
        · intro _ id
          simp only [Journal.ids, List.map_append, List.map_cons, List.map_nil, List.mem_cons,
            List.mem_append, List.not_mem_nil, or_false]
          rw [or_comm, inJournal id]
          rfl

theorem retainAfter (holds : Holds codec file journal) (sequence : ℤ) :
    Holds codec (file.retainAfter sequence).2 (journal.retainAfter sequence).2 := by
  rw [EventFile.retainAfter, Journal.retainAfter]
  by_cases isNegative : sequence < 0
  · rw [if_pos isNegative, if_pos isNegative]
    exact holds
  · rw [if_neg isNegative, if_neg isNegative, holds.floor]
    by_cases isLess : sequence < journal.floor
    · simp only [isLess, if_true]
      exact holds
    · simp only [isLess, if_false]
      by_cases isSame : sequence = journal.floor
      · rw [if_pos isSame, isSame]
        exact holds
      · rw [if_neg isSame]
        refine { holds with floor := ?_ }
        rw [EventFile.retention]
        exact if_neg isNegative

/-- After an event of a new id that is too long the log cannot be read. -/
theorem broken (holds : Holds codec file journal) (plain : Plain codec) {event : Bytes}
    (long : journal.Overlong codec event) :
    (file.appendEvent codec event).1 = .ok true ∧
      (file.appendEvent codec event).2.allEvents codec =
        .error "bufio.Scanner: token too long" := by
  rcases long with ⟨record, isRecord, isNew, isLong⟩
  rcases holds.loadSeen with ⟨seen, isSeen, inJournal⟩
  have notSeen : record.id ∉ seen := fun isThere => isNew ((inJournal _).mp isThere)
  rw [appendEvent_of_record isRecord isSeen, if_neg notSeen]
  refine ⟨rfl, ?_⟩
  have solid := (readable_of_recordOf plain isRecord).solid
  have isScan : scan maxTokenSize (written record.data) = ([], true) := by
    have isLongScan : scan maxTokenSize (written record.data ++ []) = ([], true) :=
      scan_of_long solid (by decide) isLong
    rwa [List.append_nil] at isLongScan
  simp only [EventFile.allEvents, holds.scan_log, isScan, List.append_nil,
    readLines_data holds.readable]
  rfl

end Holds

/-- The log keeps its promises in every state of a run exactly if no event of a new id is too
long for the scanner. -/
theorem complete_throughout_iff (plain : Plain codec) (calls : List Call) :
    (∀ count, Complete codec ((machine codec).run {} (calls.take count))
      ((Journal.machine codec).run {} (calls.take count))) ↔
    ∀ step ∈ (Journal.machine codec).steps {} calls, step.before.Fits codec step.input := by
  have kept : ∀ (file : EventFile) (journal : Journal) (input : Call), Holds codec file journal →
      journal.Fits codec input →
        Holds codec ((machine codec).step file input).1
          ((Journal.machine codec).step journal input).1 := by
    intro file journal input holds fits
    cases input with
    | appendEvent event => exact holds.append plain fits
    | retainAfter sequence => exact holds.retainAfter sequence
    | events => exact holds
    | reopen => exact holds.reopen
  have broken : ∀ (file : EventFile) (journal : Journal) (input : Call), Holds codec file journal →
      ¬ journal.Fits codec input →
        ¬ Complete codec ((machine codec).step file input).1
          ((Journal.machine codec).step journal input).1 := by
    intro file journal input holds notFits complete
    cases input with
    | appendEvent event =>
        have unread := (holds.broken plain (not_not.mp notFits)).2
        have reads := complete.reads
        simp only [machine, call, EventFile.events, unread] at reads
        cases reads
    | retainAfter _ => exact notFits trivial
    | events => exact notFits trivial
    | reopen => exact notFits trivial
  exact Machine.forall_take_related_iff kept broken (fun _ _ holds => holds.complete) .empty

/-! ## Two events -/

def textBytes (text : String) : Bytes := text.toList.map fun c => UInt8.ofNat c.toNat

/-- JSON as far as one document goes, which is canonical. -/
def documentCodec (document : Bytes) (fields : Json.Object) : Codec Bytes where
  unmarshal data :=
    if data = document then .ok (.obj fields) else .error "unexpected end of JSON input"
  marshal
    | .obj _ => document
    | _ => textBytes "null"
  compact data := data
  sha256Hex _ := ""

theorem plain_documentCodec {document : Bytes} (fields : Json.Object) (solid : Solid document)
    (nonempty : document ≠ []) : Plain (documentCodec document fields) where
  solid value := by
    cases value with
    | obj _ => exact solid
    | _ =>
        have solidNull : Solid (textBytes "null") := by
          simp [textBytes, Solid, newline, carriageReturn]
        exact solidNull
  nonempty value := by
    cases value with
    | obj _ => exact nonempty
    | _ =>
        have isNull : textBytes "null" ≠ [] := by simp [textBytes]
        exact isNull

theorem recordOf_documentCodec {document event : Bytes} {fields : Json.Object}
    {record : EventRecord}
    (isRecord : Journal.recordOf (documentCodec document fields) event = .ok record) :
    record.data = document := by
  rw [Journal.recordOf, Codec.canonicalize] at isRecord
  by_cases isDocument : event = document
  · simp only [documentCodec, if_pos isDocument] at isRecord
    split at isRecord
    · cases isRecord
    · split at isRecord
      · cases isRecord
      · cases isRecord
        rfl
  · simp only [documentCodec, if_neg isDocument] at isRecord
    cases isRecord

/-- A small event, `{"id":"evt_1","sequence":1}`. -/
def shortEvent : Bytes := textBytes "\x7b\"id\":\"evt_1\",\"sequence\":1\x7d"

def shortCodec : Codec Bytes :=
  documentCodec shortEvent [("id", .str "evt_1"), ("sequence", .num 1)]

theorem shortEvent_complete : (List.range 5).Forall fun count =>
    let calls : List Call :=
      [.appendEvent shortEvent, .reopen, .appendEvent shortEvent, .retainAfter 1]
    Complete shortCodec ((machine shortCodec).run {} (calls.take count))
      ((Journal.machine shortCodec).run {} (calls.take count)) := by
  have solid : Solid shortEvent := by
    simp [shortEvent, textBytes, Solid, newline, carriageReturn]
  have nonempty : shortEvent ≠ [] := by simp [shortEvent, textBytes]
  have isShort : shortEvent.length < maxTokenSize := by simp [shortEvent, textBytes, maxTokenSize]
  refine List.forall_iff_forall_mem.mpr fun count _ => ?_
  refine (complete_throughout_iff (plain_documentCodec _ solid nonempty) _).mpr ?_ count
  intro step stepMem
  cases isInput : step.input with
  | appendEvent event =>
      rintro ⟨record, isRecord, _, isLong⟩
      rw [recordOf_documentCodec isRecord] at isLong
      omega
  | _ => trivial

/-- An event with a note of four megabytes. -/
def longEvent : Bytes :=
  textBytes "\x7b\"id\":\"evt_1\",\"note\":\"" ++ List.replicate maxTokenSize 97 ++
    textBytes "\"\x7d"

/-- The fields of an event with a note. -/
def noted (note : String) : Json.Object := [("id", .str "evt_1"), ("note", .str note)]

def longCodec : Codec Bytes :=
  documentCodec longEvent (noted (String.ofList (List.replicate maxTokenSize 'a')))

theorem decodeEventProbe_noted (note : String) :
    decodeEventProbe (.obj (noted note)) {} = .ok { id := "evt_1", sequence := 0 } := by
  have sorted : (noted note).insertionSort (fun left right => left.1 ≤ right.1) = noted note := by
    apply List.Pairwise.insertionSort_eq
    simp only [noted, List.pairwise_cons, List.mem_singleton, forall_eq, List.not_mem_nil,
      false_implies, implies_true, List.Pairwise.nil, and_true]
    decide
  simp only [decodeEventProbe, GoJson.struct, sorted]
  simp [noted, GoJson.fieldFor, GoJson.field, GoJson.foldName, GoJson.foldChar, GoJson.string,
    List.lookup_cons, Except.map]
  rfl

theorem recordOf_noted (document : Bytes) (note : String) :
    Journal.recordOf (documentCodec document (noted note)) document =
      .ok { id := "evt_1", sequence := 0, data := document } := by
  simp only [Journal.recordOf, Codec.canonicalize, documentCodec, if_true, probeOf, Except.bind,
    decodeEventProbe_noted]
  rfl

theorem solid_longEvent : Solid longEvent := by
  intro byte isThere
  rw [longEvent, List.mem_append, List.mem_append, List.mem_replicate] at isThere
  rcases isThere with (isHead | ⟨_, rfl⟩) | isTail
  · revert byte
    simp [textBytes, newline, carriageReturn]
  · decide
  · revert byte
    simp [textBytes, newline, carriageReturn]

theorem length_longEvent : maxTokenSize ≤ longEvent.length := by
  simp only [longEvent, List.length_append, List.length_replicate]
  omega

/-- A long document is appended, and then the log cannot be read. -/
theorem noted_breaks {document : Bytes} (note : String) (solid : Solid document)
    (isLong : maxTokenSize ≤ document.length) :
    ((({} : EventFile).appendEvent (documentCodec document (noted note)) document).1 = .ok true ∧
      (({} : EventFile).appendEvent (documentCodec document (noted note)) document).2.events
        (documentCodec document (noted note)) = .error "bufio.Scanner: token too long") ∧
    ¬ ∀ count, Complete (documentCodec document (noted note))
      ((machine (documentCodec document (noted note))).run {}
        ([Call.appendEvent document].take count))
      ((Journal.machine (documentCodec document (noted note))).run {}
        ([Call.appendEvent document].take count)) := by
  have nonempty : document ≠ [] := by
    rintro rfl
    exact absurd isLong (by decide)
  have overlong : ({} : Journal).Overlong (documentCodec document (noted note)) document :=
    ⟨_, recordOf_noted document note, List.not_mem_nil, isLong⟩
  rcases Holds.empty.broken (plain_documentCodec _ solid nonempty) overlong with ⟨appended, unread⟩
  have unreadEvents : (({} : EventFile).appendEvent (documentCodec document (noted note))
      document).2.events (documentCodec document (noted note)) =
        .error "bufio.Scanner: token too long" := by
    simp only [EventFile.events, unread]
  refine ⟨⟨appended, unreadEvents⟩, fun complete => ?_⟩
  have reads := (complete 1).reads
  simp only [List.take_succ_cons, List.take_zero, Machine.run_cons, Machine.run_nil, machine, call,
    unreadEvents] at reads
  cases reads

/-- An event of four megabytes is appended, and then the log cannot be read. -/
theorem longEvent_breaks :
    ((({} : EventFile).appendEvent longCodec longEvent).1 = .ok true ∧
      (({} : EventFile).appendEvent longCodec longEvent).2.events longCodec =
        .error "bufio.Scanner: token too long") ∧
    ¬ ∀ count, Complete longCodec
      ((machine longCodec).run {} ([Call.appendEvent longEvent].take count))
      ((Journal.machine longCodec).run {} ([Call.appendEvent longEvent].take count)) :=
  noted_breaks (String.ofList (List.replicate maxTokenSize 'a')) solid_longEvent length_longEvent

end EventFile

end Aa.Memory
