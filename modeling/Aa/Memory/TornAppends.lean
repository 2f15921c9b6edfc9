import Aa.Memory.EventFile

/-!
# Failed appends to the event log

A write to the log that fails may leave the start of its line behind. Nothing removes it: the
next event is written after it, on the same line. The bytes of a log that is read as the events
that were appended are counted: nothing else is in it. So a failed append is harmless exactly
if it wrote nothing.
-/

namespace Aa.Memory

open Aa.Library LineScanner

namespace EventFile

variable (codec : Codec Bytes)

/-- The failure of a write: how many bytes of the line were written, and the error. -/
structure TornWrite where
  count : ℕ
  message : String

/-- Appends a canonical event to the log, whose write may fail before the line break. -/
def appendEventTorn (file : EventFile) (torn : Option TornWrite) (event : Bytes) :
    Except String Bool × EventFile :=
  match codec.canonicalize event with
  | .error message => (.error message, file)
  | .ok canonical =>
      match probeOf codec canonical with
      | .error message => (.error message, file)
      | .ok probe =>
          if probe.id = "" then (.error "event.id: is required", file)
          else
            match file.loadSeen codec with
            | .error message => (.error message, file)
            | .ok seen =>
                if probe.id ∈ seen then (.ok false, { file with seen := seen })
                else
                  match torn with
                  | some write =>
                      (.error write.message,
                        { file with log := file.log ++ canonical.take write.count, seen := seen })
                  | none =>
                      (.ok true,
                        { file with log := file.log ++ written canonical, seen := probe.id :: seen })

/-- An event, and how its write fails if it does. -/
abbrev TornCall := Bytes × Option TornWrite

/-- The log under appends that may fail. -/
def tornMachine : Machine EventFile TornCall (Except String Bool) where
  step file call :=
    ((file.appendEventTorn codec call.2 call.1).2, (file.appendEventTorn codec call.2 call.1).1)

abbrev TornStep := Machine.Step EventFile TornCall (Except String Bool)

/-- The entry of a step that appended one. -/
def appendedOf (step : TornStep) : Option EventRecord :=
  match step.output with
  | .ok true => (Journal.recordOf codec step.input.1).toOption
  | _ => none

/-- The entries of the successful appends, in order. -/
def appended (steps : List TornStep) : List EventRecord := steps.filterMap (appendedOf codec)

/-- A call that comes to write the entry of an event. -/
def Writes (file : EventFile) (event : Bytes) (record : EventRecord) : Prop :=
  Journal.recordOf codec event = .ok record ∧
    ∃ seen, file.loadSeen codec = .ok seen ∧ record.id ∉ seen

/-- A call whose write fails after some bytes. -/
def Tears (file : EventFile) (call : TornCall) : Prop :=
  (∃ record, file.Writes codec call.1 record) ∧ ∃ write, call.2 = some write ∧ 0 < write.count

/-- A call that writes an event which is longer than the scanner reads. -/
def Overfills (file : EventFile) (call : TornCall) : Prop :=
  ∃ record, file.Writes codec call.1 record ∧ call.2 = none ∧ maxTokenSize ≤ record.data.length

variable {codec}

/-- The calls that come to write an entry: what they write follows the log. -/
theorem appendEventTorn_of_writes {file : EventFile} {event : Bytes} {record : EventRecord}
    (writes : file.Writes codec event record) (torn : Option TornWrite) :
    (torn = none ∧ (file.appendEventTorn codec torn event).1 = .ok true ∧
        (file.appendEventTorn codec torn event).2.log = file.log ++ written record.data) ∨
      ∃ write, torn = some write ∧
        (file.appendEventTorn codec torn event).1 = .error write.message ∧
        (file.appendEventTorn codec torn event).2.log =
          file.log ++ record.data.take write.count := by
  rcases writes with ⟨isRecord, seen, isSeen, isNew⟩
  unfold Journal.recordOf at isRecord
  split at isRecord
  · cases isRecord
  · rename_i canonical isCanonical
    split at isRecord
    · cases isRecord
    · rename_i probe isProbe
      split at isRecord
      · cases isRecord
      · rename_i named
        cases isRecord
        cases torn with
        | none =>
            left
            simp [appendEventTorn, isCanonical, isProbe, isSeen, named, isNew]
        | some write =>
            right
            simp [appendEventTorn, isCanonical, isProbe, isSeen, named, isNew]

/-- The other calls leave the log alone and are no successful appends. -/
theorem appendEventTorn_of_idle {file : EventFile} {event : Bytes}
    (idle : ¬ ∃ record, file.Writes codec event record) (torn : Option TornWrite) :
    (file.appendEventTorn codec torn event).1 ≠ .ok true ∧
      (file.appendEventTorn codec torn event).2.log = file.log := by
  unfold appendEventTorn
  split
  · exact ⟨by simp, rfl⟩
  · rename_i canonical isCanonical
    split
    · exact ⟨by simp, rfl⟩
    · rename_i probe isProbe
      split
      · exact ⟨by simp, rfl⟩
      · rename_i named
        split
        · exact ⟨by simp, rfl⟩
        · rename_i seen isSeen
          split
          · exact ⟨by simp, rfl⟩
          · rename_i isNew
            refine absurd ?_ idle
            refine ⟨{ id := probe.id, sequence := probe.sequence, data := canonical }, ?_, seen,
              isSeen, isNew⟩
            simp only [Journal.recordOf, isCanonical, isProbe, if_neg named]

theorem appendEventTorn_floor (file : EventFile) (torn : Option TornWrite) (event : Bytes) :
    (file.appendEventTorn codec torn event).2.floor = file.floor := by
  unfold appendEventTorn
  split
  · rfl
  · split
    · rfl
    · split
      · rfl
      · split
        · rfl
        · split
          · rfl
          · split <;> rfl

/-! ## The bytes of a log -/

/-- What a text holds besides its line breaks. -/
def unbroken (text : Bytes) : Bytes := text.filter (· ≠ newline)

theorem unbroken_append (first second : Bytes) :
    unbroken (first ++ second) = unbroken first ++ unbroken second := by
  simp [unbroken]

theorem unbroken_of_solid {line : Bytes} (solid : Solid line) : unbroken line = line := by
  simp only [unbroken, List.filter_eq_self, decide_eq_true_eq]
  intro byte isThere
  exact (solid byte isThere).1

theorem dropCarriageReturn_of_not_mem {line : Bytes} (plain : carriageReturn ∉ line) :
    dropCarriageReturn line = line := by
  rw [dropCarriageReturn, if_neg]
  intro isLast
  exact plain (List.mem_of_getLast? isLast)

/-- The lines of a text without carriage returns hold all of it, if the scan reaches its end. -/
theorem flatten_of_scanFrom {size : ℕ} {line text : Bytes} {lines : List Bytes}
    (plain : carriageReturn ∉ line ++ text) (scanned : scanFrom size line text = (lines, false)) :
    lines.flatten = line ++ unbroken text := by
  induction text generalizing line lines with
  | nil =>
      rw [List.append_nil] at plain
      simp only [scanFrom, Prod.mk.injEq, and_true] at scanned
      subst scanned
      split
      · rename_i isNil
        simp [isNil, unbroken]
      · simp [dropCarriageReturn_of_not_mem plain, unbroken]
  | cons byte rest ih =>
      rw [scanFrom] at scanned
      have plainLine : carriageReturn ∉ line := fun isThere => plain (by simp [isThere])
      have plainRest : carriageReturn ∉ rest := fun isThere => plain (by simp [isThere])
      split at scanned
      · rename_i isBreak
        cases later : scanFrom size [] rest with
        | mk found isFull =>
            simp only [later, Prod.mk.injEq] at scanned
            rcases scanned with ⟨rfl, rfl⟩
            rw [List.flatten_cons, ih (by simpa using plainRest) later,
              dropCarriageReturn_of_not_mem plainLine]
            simp [unbroken, isBreak]
      · rename_i noBreak
        split at scanned
        · cases scanned
        · have again := ih (by simpa using plain) scanned
          rw [again]
          simp [unbroken, noBreak]

/-- The entries that are read hold what the lines hold. -/
theorem flatten_of_readLines {lines : List Bytes} {records : List EventRecord}
    (reads : readLines codec lines = .ok records) :
    (records.map EventRecord.data).flatten = lines.flatten := by
  induction lines generalizing records with
  | nil =>
      cases reads
      rfl
  | cons line rest ih =>
      rw [readLines] at reads
      split at reads
      · rename_i isEmpty
        rw [List.flatten_cons, List.length_eq_zero_iff.mp isEmpty, List.nil_append]
        exact ih reads
      · split at reads
        · cases reads
        · cases later : readLines codec rest with
          | error message =>
              rw [later] at reads
              cases reads
          | ok found =>
              rw [later] at reads
              cases reads
              rw [List.map_cons, List.flatten_cons, List.flatten_cons, ih later]

/-- The entries of a log without carriage returns hold all of it. -/
theorem flatten_of_allEvents {file : EventFile} {records : List EventRecord}
    (plain : carriageReturn ∉ file.log) (reads : file.allEvents codec = .ok records) :
    (records.map EventRecord.data).flatten = unbroken file.log := by
  simp only [allEvents] at reads
  split at reads
  · cases reads
  · rename_i found isRead
    split at reads
    · cases reads
    · rename_i isWhole
      cases reads
      rw [flatten_of_readLines isRead]
      refine flatten_of_scanFrom (by simpa using plain) (Prod.ext rfl ?_)
      exact Bool.eq_false_of_not_eq_true isWhole

/-- A text of solid lines that is scanned to its end has only lines that fit. -/
theorem short_of_scan {size : ℕ} {lines : List Bytes} (positive : 0 < size)
    (solid : ∀ line ∈ lines, Solid line) (whole : (scan size (lines.flatMap written)).2 = false) :
    ∀ line ∈ lines, line.length < size := by
  induction lines with
  | nil => simp
  | cons line rest ih =>
      have here := solid line List.mem_cons_self
      rw [List.flatMap_cons] at whole
      have fits : line.length < size := by
        by_contra long
        rw [scan_of_long here positive (Nat.le_of_not_lt long)] at whole
        cases whole
      rw [scan_of_short here fits] at whole
      simp only [List.mem_cons, forall_eq_or_imp]
      exact ⟨fits, ih (fun other isThere => solid other (List.mem_cons_of_mem line isThere)) whole⟩

/-! ## Runs -/

/-- What a call adds to the log: the entry it appends, or the start of one, which is empty unless
the call tears. -/
theorem step_log (plain : Plain codec) (file : EventFile) (call : TornCall) :
    (∃ record, file.Writes codec call.1 record ∧ call.2 = none ∧ Readable codec record ∧
        appendedOf codec ((tornMachine codec).stepAt file call) = some record ∧
        ((tornMachine codec).step file call).1.log = file.log ++ written record.data) ∨
      (¬ file.Overfills codec call ∧
        appendedOf codec ((tornMachine codec).stepAt file call) = none ∧
        ∃ start, Solid start ∧ (file.Tears codec call ↔ start ≠ []) ∧
          ((tornMachine codec).step file call).1.log = file.log ++ start) := by
  rcases call with ⟨event, torn⟩
  by_cases writes : ∃ record, file.Writes codec event record
  · rcases writes with ⟨record, writes⟩
    have readable := readable_of_recordOf plain writes.1
    rcases appendEventTorn_of_writes writes torn with
      ⟨isWhole, succeeds, log⟩ | ⟨write, isTorn, fails, log⟩
    · refine .inl ⟨record, writes, isWhole, readable, ?_, log⟩
      simp [appendedOf, Machine.stepAt, tornMachine, succeeds, writes.1, Except.toOption]
    · refine .inr ⟨?_, ?_, record.data.take write.count, ?_, ?_, log⟩
      · rintro ⟨-, -, isWhole, -⟩
        simp [isTorn] at isWhole
      · simp [appendedOf, Machine.stepAt, tornMachine, fails]
      · exact fun byte isThere => readable.solid byte (List.mem_of_mem_take isThere)
      · have isData := readable.nonempty
        constructor
        · rintro ⟨-, other, isOther, positive⟩ isNil
          have same : write = other := Option.some.inj (isTorn.symm.trans isOther)
          rcases List.take_eq_nil_iff.mp isNil with isZero | noData
          · rw [← same] at positive
            omega
          · exact isData noData
        · intro isStart
          refine ⟨⟨record, writes⟩, write, isTorn, Nat.pos_of_ne_zero fun isZero => ?_⟩
          exact isStart (by rw [isZero, List.take_zero])
  · rcases appendEventTorn_of_idle writes torn with ⟨noSuccess, log⟩
    refine .inr ⟨?_, ?_, [], ?_, ?_, by rw [List.append_nil]; exact log⟩
    · rintro ⟨record, isWriting, -⟩
      exact writes ⟨record, isWriting⟩
    · simp only [appendedOf, Machine.stepAt, tornMachine]
    · rintro byte ⟨⟩
    · constructor
      · rintro ⟨isWriting, -⟩
        exact absurd isWriting writes
      · exact fun isStart => absurd rfl isStart

theorem appended_cons (step : TornStep) (steps : List TornStep) :
    appended codec (step :: steps) = (appendedOf codec step).toList ++ appended codec steps := by
  cases isStep : appendedOf codec step with
  | none => simp [appended, isStep]
  | some record => simp [appended, isStep]

/-- The bytes of the entries. -/
def held (records : List EventRecord) : Bytes := (records.map EventRecord.data).flatten

theorem held_append (first second : List EventRecord) :
    held (first ++ second) = held first ++ held second := by
  simp [held]

/-- No run writes a carriage return. -/
theorem run_plain (plain : Plain codec) {file : EventFile} (calls : List TornCall)
    (before : carriageReturn ∉ file.log) :
    carriageReturn ∉ ((tornMachine codec).run file calls).log := by
  let noReturn (file : EventFile) : Prop := carriageReturn ∉ file.log
  have preserved : ∀ file call, noReturn file → noReturn ((tornMachine codec).step file call).1 := by
    intro file call before isThere
    rcases step_log plain file call with ⟨record, -, -, readable, -, log⟩ | ⟨-, -, start, solid, -, log⟩
    · rw [log, written] at isThere
      rcases List.mem_append.mp isThere with isOld | isNew
      · exact before isOld
      · rcases List.mem_append.mp isNew with isData | isBreak
        · exact (readable.solid _ isData).2 rfl
        · exact absurd (List.mem_singleton.mp isBreak) (by decide)
    · rw [log] at isThere
      rcases List.mem_append.mp isThere with isOld | isStart
      · exact before isOld
      · exact (solid _ isStart).2 rfl
  exact (tornMachine codec).run_invariant preserved before

/-- A log holds at least the entries that were appended, and more if a write left the start of
one. -/
theorem run_length (plain : Plain codec) (file : EventFile) (calls : List TornCall) :
    let steps := (tornMachine codec).steps file calls
    let bytes := (unbroken file.log).length + (held (appended codec steps)).length
    let after := (unbroken ((tornMachine codec).run file calls).log).length
    bytes ≤ after ∧ ((∃ step ∈ steps, step.before.Tears codec step.input) → bytes < after) := by
  induction calls generalizing file with
  | nil => simp [appended, held]
  | cons call rest ih =>
      rcases ih ((tornMachine codec).step file call).1 with ⟨least, more⟩
      simp only [Machine.steps_cons, Machine.run_cons, appended_cons, held_append,
        List.length_append, List.mem_cons, exists_eq_or_imp] at least more ⊢
      rcases step_log plain file call with
        ⟨record, -, isWhole, readable, isAppended, log⟩ | ⟨-, noAppend, start, solid, tears, log⟩
      · have noTear : ¬ file.Tears codec call := by
          rintro ⟨-, write, isTorn, -⟩
          simp [isWhole] at isTorn
        have size : (unbroken (file.log ++ written record.data)).length =
            (unbroken file.log).length + record.data.length := by
          rw [unbroken_append, written, unbroken_append, unbroken_of_solid readable.solid]
          simp [unbroken]
        rw [log, size] at least more
        simp only [isAppended, Option.toList_some, held, List.map_cons, List.map_nil,
          List.flatten_cons, List.flatten_nil, List.append_nil] at least more ⊢
        refine ⟨by omega, ?_⟩
        rintro (tearsNow | later)
        · exact absurd tearsNow noTear
        · have := more later
          omega
      · rw [log, unbroken_append, List.length_append, unbroken_of_solid solid] at least more
        simp only [noAppend, Option.toList_none, held, List.map_nil, List.flatten_nil,
          List.length_nil] at least more ⊢
        refine ⟨by omega, ?_⟩
        rintro (tearsNow | later)
        · have := List.length_pos_iff.mpr (tears.mp tearsNow)
          omega
        · have := more later
          omega

/-- Where no write left the start of an entry, the log is that of the appended entries. -/
theorem run_log (plain : Plain codec) {file : EventFile} {calls : List TornCall}
    (untorn : ∀ step ∈ (tornMachine codec).steps file calls, ¬ step.before.Tears codec step.input) :
    ((tornMachine codec).run file calls).log = file.log ++
      ((appended codec ((tornMachine codec).steps file calls)).map EventRecord.data).flatMap
        written := by
  induction calls generalizing file with
  | nil => simp [appended]
  | cons call rest ih =>
      have later : _ := @ih ((tornMachine codec).step file call).1
        fun step isThere => untorn step (by simp [isThere])
      have now := untorn ((tornMachine codec).stepAt file call) (by simp)
      rw [Machine.run_cons, later, Machine.steps_cons, appended_cons]
      rcases step_log plain file call with
        ⟨record, -, -, -, isAppended, log⟩ | ⟨-, noAppend, start, -, tears, log⟩
      · simp [isAppended, log]
      · have isNil : start = [] := not_not.mp fun isStart => now (tears.mpr isStart)
        simp [noAppend, log, isNil]

/-- The appended entries are readable, and too long for the scanner only if a call overfilled. -/
theorem appended_spec (plain : Plain codec) (file : EventFile) (calls : List TornCall) :
    (∀ record ∈ appended codec ((tornMachine codec).steps file calls), Readable codec record) ∧
      ((∀ record ∈ appended codec ((tornMachine codec).steps file calls),
          record.data.length < maxTokenSize) ↔
        ∀ step ∈ (tornMachine codec).steps file calls,
          ¬ step.before.Overfills codec step.input) := by
  induction calls generalizing file with
  | nil => simp [appended]
  | cons call rest ih =>
      rcases ih ((tornMachine codec).step file call).1 with ⟨readable, short⟩
      rw [Machine.steps_cons, appended_cons]
      simp only [List.mem_cons, forall_eq_or_imp]
      rcases step_log plain file call with
        ⟨record, writes, isWhole, isReadable, isAppended, -⟩ | ⟨noOverfill, noAppend, -⟩
      · have overfills : file.Overfills codec call ↔ maxTokenSize ≤ record.data.length := by
          constructor
          · rintro ⟨other, isOther, -, long⟩
            cases writes.1.symm.trans isOther.1
            exact long
          · exact fun long => ⟨record, writes, isWhole, long⟩
        simp only [isAppended, Option.toList_some, List.singleton_append, List.mem_cons,
          forall_eq_or_imp]
        refine ⟨⟨isReadable, readable⟩, and_congr ?_ short⟩
        rw [← Nat.not_le]
        exact not_congr overfills.symm
      · simp only [noAppend, Option.toList_none, List.nil_append]
        refine ⟨readable, short.trans ?_⟩
        exact ⟨fun later => ⟨noOverfill, later⟩, fun all => all.2⟩

theorem run_floor (file : EventFile) (calls : List TornCall) :
    ((tornMachine codec).run file calls).floor = file.floor := by
  induction calls generalizing file with
  | nil => rfl
  | cons call rest ih => exact (ih _).trans (appendEventTorn_floor file call.2 call.1)

/-- A log of readable lines is read to its end exactly if no line is too long. -/
theorem allEvents_of_log {file : EventFile} {records : List EventRecord}
    (log : file.log = (records.map EventRecord.data).flatMap written)
    (readable : ∀ record ∈ records, Readable codec record) :
    file.allEvents codec = .ok records ↔ ∀ record ∈ records, record.data.length < maxTokenSize := by
  have solid : ∀ line ∈ records.map EventRecord.data, Solid line := by
    intro line isLine
    rcases List.mem_map.mp isLine with ⟨record, recordMem, rfl⟩
    exact (readable record recordMem).solid
  constructor
  · intro reads record recordMem
    have isWhole : (scan maxTokenSize file.log).2 = false := by
      simp only [allEvents] at reads
      split at reads
      · cases reads
      · split at reads
        · cases reads
        · rename_i isWhole
          exact Bool.eq_false_of_not_eq_true isWhole
    rw [log] at isWhole
    exact short_of_scan (by decide) solid isWhole _ (List.mem_map_of_mem recordMem)
  · intro short
    have scanned := scan_written solid (fun line isLine => by
      rcases List.mem_map.mp isLine with ⟨record, recordMem, rfl⟩
      exact short record recordMem) []
    have isNil : scan maxTokenSize [] = ([], false) := rfl
    rw [List.append_nil, ← log, isNil, List.append_nil] at scanned
    simp only [allEvents, scanned, readLines_data readable]
    rfl

/-- After appends to a new log of which some fail, the events are those of the successful ones
exactly if every failed write wrote nothing and every entry is shorter than the scanner reads. -/
theorem failed_appends_harmless_iff (plain : Plain codec) (calls : List TornCall) :
    ((tornMachine codec).run {} calls).events codec =
        .ok (appended codec ((tornMachine codec).steps {} calls)) ↔
      ∀ step ∈ (tornMachine codec).steps {} calls,
        ¬ step.before.Tears codec step.input ∧ ¬ step.before.Overfills codec step.input := by
  have noFloor : ((tornMachine codec).run {} calls).retention = .ok 0 := by
    simp [retention, run_floor]
  have noRetention : ((tornMachine codec).run {} calls).events codec =
      ((tornMachine codec).run {} calls).allEvents codec := by
    unfold events
    rw [noFloor]
    split
    · rename_i isRead
      exact isRead.symm
    · rename_i isRead
      exact isRead.symm
  have noReturn : carriageReturn ∉ ((tornMachine codec).run {} calls).log :=
    run_plain plain calls (by simp)
  rcases appended_spec plain {} calls with ⟨readable, short⟩
  rw [noRetention]
  constructor
  · intro reads
    have untorn : ∀ step ∈ (tornMachine codec).steps {} calls,
        ¬ step.before.Tears codec step.input := by
      intro step isStep tears
      -- the log holds no more than the entries that are read
      have more := (run_length plain {} calls).2 ⟨step, isStep, tears⟩
      rw [← flatten_of_allEvents noReturn reads] at more
      simp [held, unbroken] at more
    have log := run_log plain untorn
    have fits := short.mp ((allEvents_of_log log readable).mp reads)
    exact fun step isStep => ⟨untorn step isStep, fits step isStep⟩
  · intro harmless
    have log := run_log plain fun step isStep => (harmless step isStep).1
    exact (allEvents_of_log log readable).mpr (short.mpr fun step isStep => (harmless step isStep).2)

/-- An append that wrote nothing, and the same append again. -/
def untornCalls : List TornCall :=
  [(shortEvent, some ⟨0, "no space left on device"⟩), (shortEvent, none)]

theorem untornCalls_harmless :
    ((tornMachine shortCodec).run {} untornCalls).events shortCodec =
      .ok (appended shortCodec ((tornMachine shortCodec).steps {} untornCalls)) := by
  have solid : Solid shortEvent := by
    simp [shortEvent, textBytes, Solid, newline, carriageReturn]
  have nonempty : shortEvent ≠ [] := by simp [shortEvent, textBytes]
  have isShort : shortEvent.length < maxTokenSize := by simp [shortEvent, textBytes, maxTokenSize]
  refine (failed_appends_harmless_iff (plain_documentCodec _ solid nonempty) _).mpr ?_
  intro step isStep
  constructor
  · rintro ⟨-, write, isTorn, positive⟩
    have isInput := (tornMachine shortCodec).input_mem step isStep
    simp only [untornCalls, List.mem_cons, List.not_mem_nil, or_false] at isInput
    rcases isInput with isInput | isInput
    · rw [isInput] at isTorn
      cases isTorn
      exact absurd positive (by decide)
    · rw [isInput] at isTorn
      cases isTorn
  · rintro ⟨record, ⟨isRecord, -⟩, -, long⟩
    rw [recordOf_documentCodec isRecord] at long
    omega

def nextEvent : Bytes := textBytes "\x7b\"id\":\"evt_2\",\"sequence\":2\x7d"

/-- JSON as far as the two events go, which are canonical. -/
def pairCodec : Codec Bytes where
  unmarshal data :=
    if data = shortEvent then .ok (.obj [("id", .str "evt_1"), ("sequence", .num 1)])
    else if data = nextEvent then .ok (.obj [("id", .str "evt_2"), ("sequence", .num 2)])
    else .error "unexpected end of JSON input"
  marshal
    | .obj [("id", .str "evt_1"), ("sequence", _)] => shortEvent
    | .obj _ => nextEvent
    | _ => textBytes "null"
  compact data := data
  sha256Hex _ := ""

/-- An append, one whose write fails after five bytes, and the same append again. -/
def tornCalls : List TornCall :=
  [(shortEvent, none), (nextEvent, some ⟨5, "no space left on device"⟩), (nextEvent, none)]

/-- The last append is successful, and after it the log cannot be read. -/
theorem tornCalls_unread :
    ((tornMachine pairCodec).steps {} tornCalls).map (·.output) =
        [.ok true, .error "no space left on device", .ok true] ∧
      ((tornMachine pairCodec).run {} tornCalls).events pairCodec =
        .error "store: corrupt event log: unexpected end of JSON input" := by
  constructor <;> rfl

end EventFile

end Aa.Memory
