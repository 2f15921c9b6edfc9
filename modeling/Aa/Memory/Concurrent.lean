import Aa.Library.CheckedWrite
import Aa.Memory.Convergence
import Aa.Memory.Facade

/-!
# Concurrent writes of records

The store takes no lock to write a record: it reads the file, compares the revisions and renames
a new file over it, and other calls may come in between. A call that nobody interrupts does what
the facade's call does.
-/

set_option linter.dupNamespace false

namespace Aa.Memory

open Aa.Library Aa.Contracts

variable {Data : Type}

namespace Files

/-- The atomic operations on the files and the projection. -/
inductive Op (Data : Type) where
  | read (path : String)
  | rename (path : String) (record : Record Data)
  | project (entry : Entry Data)

abbrev Answer : Op Data → Type
  | .read _ => Except String (Option (Record Data))
  | .rename .. => Except String Unit
  | .project _ => Unit

/-- Some answer to each operation. -/
def anyAnswer : (op : Op Data) → Answer op
  | .read _ => .ok none
  | .rename .. => .ok ()
  | .project _ => ()

/-- How an operation is answered; the disk may fail an access to a file. -/
def respond {ι : Type} (codec : Codec Data) :
    Pool.Responder ι (Memory Data) (Option String) (Op Data) Answer
  | _, some failure, memory, .read _ => some (.error failure, memory)
  | _, none, memory, .read path => some (.ok (memory.store.files.lookup path), memory)
  | _, some failure, memory, .rename _ _ => some (.error failure, memory)
  | _, none, memory, .rename path record =>
      some (.ok (), { memory with
        store := { files := memory.store.files.insert path (record.stored codec) } })
  | _, _, memory, .project entry =>
      some ((), { memory with projection := (memory.projection.put entry).2 })

end Files

/-- A call, with the operations on the files as its own. -/
abbrev Task (Data : Type) := Coroutine (Files.Op Data) Files.Answer Unit String

namespace Task

variable {α : Type}

def tryIt : Except String α → Task Data α
  | .ok value => pure value
  | .error message => Coroutine.raise message

/-- `readRecord`; none is `ErrNotFound`. -/
def read (path : String) : Task Data (Option (Record Data)) := Coroutine.perform (.read path) id

/-- `writeFileAtomic`. -/
def rename (path : String) (record : Record Data) : Task Data Unit :=
  Coroutine.perform (.rename path record) id

def project (entry : Entry Data) : Task Data Unit := Coroutine.perform (.project entry) .ok

variable (codec : Codec Data)

/-- Writes a record; the flag reports whether the store changed. -/
def putRecord (record : Record Data) : Task Data Bool := do
  tryIt (record.validate codec)
  let path ← tryIt (Layout.recordPath record.kind record.id)
  match ← read path with
  | some existing =>
      if existing.hash = record.hash then return false
      else if record.revision ≤ existing.revision then
        Coroutine.raise (Store.staleMessage record existing)
      else do
        rename path record
        return true
  | none => do
      rename path record
      return true

/-- Reads a record by kind and id. -/
def getRecord (kind id : String) : Task Data (Record Data) := do
  let path ← tryIt (Layout.recordPath kind id)
  match ← read path with
  | some record => return record
  | none => Coroutine.raise Store.notFound

/-- Stores a contract object and refreshes the projection. -/
def putTyped (kind id : String) (revision : ℤ) (value : Json) : Task Data Bool := do
  let record ← tryIt (newRecord codec kind id revision (codec.marshal value))
  let changed ← putRecord codec record
  if changed then
    project (fromRecord record)
    return true
  else return false

/-- An issue by id. -/
def getIssue (id : String) : Task Data V1.Issue := do
  let record ← getRecord "issue" id
  tryIt ((codec.unmarshal record.data).bind fun value => V1.decodeIssue value {})

/-- The current record revision, or 0 if it cannot be read. -/
def revisionOf (kind id : String) : Task Data ℤ :=
  Coroutine.catching (do
    let record ← getRecord kind id
    return record.revision) fun _ => return 0

/-- Transitions an issue to a new status. -/
def setStatus (id status : String) : Task Data V1.Issue := do
  let issue ← getIssue codec id
  if issue.status = status then return issue
  else do
    tryIt ((V1.validateIssueState status).mapError fun message => "issue " ++ id ++ ": " ++ message)
    let revision ← revisionOf "issue" id
    let issue : V1.Issue := { issue with status := status, revision := some (revision + 1) }
    tryIt issue.validate
    let _ ← putTyped codec "issue" issue.id (revision + 1) issue.toJson
    return issue

end Task

/-! ## A call that nobody interrupts -/

namespace Task

variable {α : Type} {ι : Type} (codec : Codec Data) (thread : ι) (memory : Memory Data)

/-- The task alone, on a disk that does not fail, does what the facade's call does. -/
def Alone (task : Task Data α) (call : Except String α × Memory Data) : Prop :=
  (task ()).solo (Files.respond codec thread none) memory = some ((call.1, ()), call.2)

theorem alone_putRecord (record : Record Data) :
    (putRecord codec record).Alone codec thread memory (memory.putRecord codec {} record) := by
  unfold Alone putRecord Memory.putRecord Store.putRecordOn
  cases valid : record.validate codec with
  | error message => simp [tryIt, Coroutine.solo_bind]
  | ok _ =>
      cases isPath : Layout.recordPath record.kind record.id with
      | error message => simp [tryIt, Coroutine.solo_bind]
      | ok path =>
          cases isFound : memory.store.files.lookup path with
          | none => simp [tryIt, read, rename, Coroutine.solo_bind, Files.respond, isFound]
          | some existing =>
              by_cases isSame : existing.hash = record.hash
              · simp [tryIt, read, rename, Coroutine.solo_bind, Files.respond, isFound, isSame]
              · by_cases isStale : record.revision ≤ existing.revision
                · simp [tryIt, read, rename, Coroutine.solo_bind, Files.respond, isFound, isSame,
                    isStale]
                · simp [tryIt, read, rename, Coroutine.solo_bind, Files.respond, isFound, isSame,
                    isStale]

variable {codec thread memory}

theorem Alone.bind_ok {β : Type} {first : Task Data β} {rest : β → Task Data α} {value : β}
    {middle : Memory Data} {call : Except String α × Memory Data}
    (starts : first.Alone codec thread memory (.ok value, middle))
    (goes : (rest value).Alone codec thread middle call) :
    (first >>= rest).Alone codec thread memory call := by
  unfold Alone at *
  rw [Coroutine.solo_bind, starts]
  exact goes

theorem Alone.bind_error {β : Type} {first : Task Data β} {rest : β → Task Data α}
    {message : String} {middle : Memory Data}
    (starts : first.Alone codec thread memory (.error message, middle)) :
    (first >>= rest).Alone codec thread memory (.error message, middle) := by
  unfold Alone at *
  rw [Coroutine.solo_bind, starts]
  rfl

theorem alone_pure (value : α) :
    (pure value : Task Data α).Alone codec thread memory (.ok value, memory) := rfl

theorem alone_tryIt (tried : Except String α) :
    (tryIt tried : Task Data α).Alone codec thread memory (tried, memory) := by
  cases tried <;> rfl

theorem alone_getRecord (kind id : String) :
    (getRecord kind id).Alone codec thread memory (memory.store.getRecordOn none kind id, memory) := by
  unfold Alone getRecord Store.getRecordOn
  cases isPath : Layout.recordPath kind id with
  | error message => simp [tryIt, Coroutine.solo_bind]
  | ok path =>
      cases isFound : memory.store.files.lookup path with
      | none => simp [tryIt, read, Coroutine.solo_bind, Files.respond, isFound]
      | some record => simp [tryIt, read, Coroutine.solo_bind, Files.respond, isFound]

theorem alone_getIssue (id : String) :
    (getIssue codec id).Alone codec thread memory
      (IssueRepository.get codec none memory id, memory) := by
  unfold IssueRepository.get getTyped
  cases isFound : memory.store.getRecordOn none "issue" id with
  | error message => exact .bind_error (isFound ▸ alone_getRecord "issue" id)
  | ok record => exact .bind_ok (isFound ▸ alone_getRecord "issue" id) (alone_tryIt _)

theorem alone_revisionOf (kind id : String) :
    (revisionOf kind id).Alone codec thread memory
      (.ok (Memory.revisionOf none memory kind id), memory) := by
  have found := @alone_getRecord Data ι codec thread memory kind id
  unfold Alone at found ⊢
  unfold revisionOf Memory.revisionOf Coroutine.catching
  rw [Program.solo_bind, Coroutine.solo_bind, found]
  cases memory.store.getRecordOn none kind id <;> rfl

theorem alone_putTyped (kind id : String) (revision : ℤ) (value : Json) :
    (putTyped codec kind id revision value).Alone codec thread memory
      (Memory.putTyped codec {} memory kind id revision value) := by
  unfold putTyped Memory.putTyped
  cases isRecord : newRecord codec kind id revision (codec.marshal value) with
  | error message => exact .bind_error (isRecord ▸ alone_tryIt _)
  | ok record =>
      refine .bind_ok (alone_tryIt _) ?_
      have puts := alone_putRecord codec thread memory record
      unfold Memory.putRecord at puts
      dsimp only
      rcases isPut : memory.store.putRecordOn codec {} record with ⟨message | changed, store⟩
      · rw [isPut] at puts
        exact .bind_error puts
      · rw [isPut] at puts
        cases changed with
        | false => exact .bind_ok puts rfl
        | true => exact .bind_ok puts rfl

/-- The status of an issue, set by a call that nobody interrupts. -/
theorem alone_setStatus (id status : String) :
    (setStatus codec id status).Alone codec thread memory
      (IssueRepository.setStatus codec {} memory id status) := by
  unfold setStatus IssueRepository.setStatus
  have gets := @alone_getIssue Data ι codec thread memory id
  cases isIssue : IssueRepository.get codec none memory id with
  | error message => exact .bind_error (isIssue ▸ gets)
  | ok issue =>
      refine .bind_ok (isIssue ▸ gets) ?_
      dsimp only
      by_cases isSame : issue.status = status
      · rw [if_pos isSame, if_pos isSame]
        exact alone_pure _
      · rw [if_neg isSame, if_neg isSame]
        cases isState : V1.validateIssueState status with
        | error message => exact .bind_error (alone_tryIt _)
        | ok _ =>
            refine .bind_ok (alone_tryIt _) (.bind_ok (alone_revisionOf "issue" id) ?_)
            dsimp only
            generalize Memory.revisionOf none memory "issue" id + 1 = revision
            cases valid : V1.Issue.validate { issue with status := status, revision := some revision } with
            | error message => exact .bind_error (alone_tryIt _)
            | ok _ =>
                refine .bind_ok (alone_tryIt _) ?_
                have puts := @alone_putTyped Data ι codec thread memory "issue" issue.id revision
                  (V1.Issue.toJson { issue with status := status, revision := some revision })
                dsimp only
                generalize Memory.putTyped codec {} memory "issue" issue.id revision
                  (V1.Issue.toJson { issue with status := status, revision := some revision }) = put at *
                rcases put with ⟨message | changed, after⟩
                · exact .bind_error puts
                · exact .bind_ok puts (alone_pure _)

end Task

/-! ## What the calls do to the files -/

namespace Files

abbrev Event (Data : Type) := Library.Event (Op Data) Answer

variable (codec : Codec Data)

/-- The record an event read, if it read a file. -/
def found : Event Data → Option (String × Option (Record Data))
  | ⟨.read path, .ok record⟩ => some (path, record)
  | _ => none

/-- The record an event renamed over a file. -/
def written : Event Data → Option (String × Record Data)
  | ⟨.rename path record, .ok _⟩ => some (path, record.stored codec)
  | _ => none

/-- The event leaves the files as they are. -/
def Silent (event : Event Data) : Prop := written codec event = none

/-- The events of a call: if it writes, it writes once, a record whose revision is higher than
the one it read right before. -/
def ChecksOnce (events : List (Event Data)) : Prop :=
  (∀ event ∈ events, Silent codec event) ∨
    ∃ before after path existing record,
      events = before ++ ⟨.read path, .ok existing⟩ :: ⟨.rename path record, .ok ()⟩ :: after ∧
        (∀ event ∈ before, Silent codec event) ∧ (∀ event ∈ after, Silent codec event) ∧
        ∀ old ∈ existing, old.revision < record.revision

variable {codec} {events : List (Event Data)}

theorem ChecksOnce.append_left {before : List (Event Data)}
    (silent : ∀ event ∈ before, Silent codec event) (checks : ChecksOnce codec events) :
    ChecksOnce codec (before ++ events) := by
  rcases checks with allSilent | ⟨early, after, path, existing, record, rfl, earlySilent, afterSilent, lower⟩
  · exact .inl fun event isThere => (List.mem_append.mp isThere).elim (silent event) (allSilent event)
  · refine .inr ⟨before ++ early, after, path, existing, record, by simp, ?_, afterSilent, lower⟩
    exact fun event isThere => (List.mem_append.mp isThere).elim (silent event) (earlySilent event)

theorem ChecksOnce.append_right {after : List (Event Data)}
    (silent : ∀ event ∈ after, Silent codec event) (checks : ChecksOnce codec events) :
    ChecksOnce codec (events ++ after) := by
  rcases checks with allSilent | ⟨before, late, path, existing, record, rfl, beforeSilent, lateSilent, lower⟩
  · exact .inl fun event isThere => (List.mem_append.mp isThere).elim (allSilent event) (silent event)
  · refine .inr ⟨before, late ++ after, path, existing, record, by simp, beforeSilent, ?_, lower⟩
    exact fun event isThere => (List.mem_append.mp isThere).elim (lateSilent event) (silent event)

theorem ChecksOnce.once (checks : ChecksOnce codec events) :
    (events.filterMap (written codec)).length ≤ 1 := by
  have none_of_silent (silentEvents : List (Event Data))
      (silent : ∀ event ∈ silentEvents, Silent codec event) :
      silentEvents.filterMap (written codec) = [] :=
    List.filterMap_eq_nil_iff.mpr silent
  rcases checks with allSilent | ⟨before, after, path, existing, record, rfl, beforeSilent, afterSilent, _⟩
  · simp [none_of_silent events allSilent]
  · simp [List.filterMap_append, List.filterMap_cons, none_of_silent before beforeSilent,
      none_of_silent after afterSilent, written]

theorem ChecksOnce.guarded (checks : ChecksOnce codec events) :
    Guarded (fun past event => ∀ write ∈ written codec event, ∃ last ∈ past.getLast?, ∃ old,
      found last = some (write.1, old) ∧ ∀ value ∈ old, value.revision < write.2.revision)
      [] events := by
  have guarded_of_silent (past silentEvents : List (Event Data))
      (silent : ∀ event ∈ silentEvents, Silent codec event) :
      Guarded (fun past event => ∀ write ∈ written codec event, ∃ last ∈ past.getLast?, ∃ old,
        found last = some (write.1, old) ∧ ∀ value ∈ old, value.revision < write.2.revision)
        past silentEvents := by
    refine guarded_iff_split.mpr ?_
    rintro before event after rfl write isWrite
    have isNone : written codec event = none := silent event (by simp)
    rw [isNone] at isWrite
    cases isWrite
  rcases checks with allSilent | ⟨before, after, path, existing, record, rfl, beforeSilent, afterSilent, lower⟩
  · exact guarded_of_silent [] events allSilent
  · refine guarded_append.mpr ⟨guarded_of_silent [] before beforeSilent, ?_, ?_, ?_⟩
    · intro write isWrite
      cases isWrite
    · intro write isWrite
      cases isWrite
      exact ⟨⟨.read path, .ok existing⟩, by simp, existing, rfl, lower⟩
    · exact guarded_of_silent _ after afterSilent

end Files

namespace Task

variable {α β : Type} {codec : Codec Data}

/-- Every execution of the task checks what it writes. -/
def Checks (codec : Codec Data) (task : Task Data α) : Prop :=
  ∀ before events outcome after, task.Does before events outcome after →
    Files.ChecksOnce codec events

open Coroutine (Only)

theorem only_tryIt (tried : Except String α) :
    Only (Files.Silent codec) (tryIt tried : Task Data α) := by
  cases tried with
  | ok value => exact .pure value
  | error message => exact .raise message

theorem only_read (path : String) : Only (Files.Silent codec) (read path : Task Data _) :=
  .perform fun answer => by cases answer <;> rfl

theorem only_getRecord (kind id : String) :
    Only (Files.Silent codec) (getRecord kind id : Task Data _) := by
  refine .bind (only_tryIt _) fun path => .bind (only_read path) fun found => ?_
  cases found with
  | none => exact .raise _
  | some record => exact .pure record

theorem Checks.of_only {task : Task Data α} (only : Only (Files.Silent codec) task) :
    Checks codec task :=
  fun before events outcome after does => .inl (only before events outcome after does)

/-- A task that leaves the files as they are, and one that checks what it writes. -/
theorem Checks.after {first : Task Data β} {rest : β → Task Data α}
    (only : Only (Files.Silent codec) first) (checks : ∀ value, Checks codec (rest value)) :
    Checks codec (first >>= rest) := by
  intro before events outcome after does
  rcases Coroutine.does_bind.mp does with
    ⟨value, middle, early, late, starts, goes, rfl⟩ | ⟨raised, starts, rfl⟩
  · exact (checks value _ _ _ _ goes).append_left (only _ _ _ _ starts)
  · exact .inl (only _ _ _ _ starts)

theorem Checks.before {first : Task Data β} {rest : β → Task Data α} (checks : Checks codec first)
    (only : ∀ value, Only (Files.Silent codec) (rest value)) : Checks codec (first >>= rest) := by
  intro before events outcome after does
  rcases Coroutine.does_bind.mp does with
    ⟨value, middle, early, late, starts, goes, rfl⟩ | ⟨raised, starts, rfl⟩
  · exact (checks _ _ _ _ starts).append_right (only value _ _ _ _ goes)
  · exact checks _ _ _ _ starts

/-- A read of a file, and a write of it that the answer allows. -/
theorem checks_overwrite {path : String} {record : Record Data}
    {rest : Option (Record Data) → Task Data Bool}
    (allows : ∀ existing, Only (Files.Silent codec) (rest existing) ∨
      ((∀ old ∈ existing, old.revision < record.revision) ∧
        rest existing = (rename path record >>= fun _ => pure true))) :
    Checks codec (read path >>= rest) := by
  intro before events outcome after does
  rcases Coroutine.does_bind.mp does with
    ⟨existing, middle, early, late, starts, goes, rfl⟩ | ⟨raised, starts, rfl⟩
  · rcases Coroutine.does_perform.mp starts with ⟨answer, rfl, isAnswer, _⟩
    cases isAnswer
    rcases allows existing with only | ⟨lower, isRest⟩
    · refine .append_left (fun event isThere => ?_) (.inl (only _ _ _ _ goes))
      rw [List.mem_singleton.mp isThere]
      rfl
    · rw [isRest] at goes
      rcases Coroutine.does_bind.mp goes with
        ⟨_, _, _, _, renames, returns, rfl⟩ | ⟨raised, renames, rfl⟩
      · rcases Coroutine.does_perform.mp renames with ⟨answer, rfl, isAnswer, _⟩
        rcases Coroutine.does_pure.mp returns with ⟨rfl, _⟩
        cases isAnswer
        exact .inr ⟨[], [], path, existing, record, rfl, by simp, by simp, lower⟩
      · rcases Coroutine.does_perform.mp renames with ⟨answer, rfl, isAnswer, _⟩
        cases isAnswer
        left
        intro event isThere
        rcases List.mem_pair.mp isThere with rfl | rfl
        · rfl
        · rfl
  · exact .inl (only_read path _ _ _ _ starts)

theorem checks_putRecord (record : Record Data) : Checks codec (putRecord codec record) := by
  refine .after (only_tryIt _) fun _ => .after (only_tryIt _) fun path => ?_
  refine @checks_overwrite Data codec path record _ fun existing => ?_
  cases existing with
  | none => exact .inr ⟨by simp, rfl⟩
  | some existing =>
      by_cases isSame : existing.hash = record.hash
      · left
        dsimp only
        rw [if_pos isSame]
        exact .pure false
      · by_cases isStale : record.revision ≤ existing.revision
        · left
          dsimp only
          rw [if_neg isSame, if_pos isStale]
          exact .raise _
        · right
          dsimp only
          rw [if_neg isSame, if_neg isStale]
          refine ⟨fun old isOld => ?_, rfl⟩
          cases isOld
          omega

theorem checks_putTyped (kind id : String) (revision : ℤ) (value : Json) :
    Checks codec (putTyped codec kind id revision value) := by
  refine .after (only_tryIt _) fun record => .before (checks_putRecord record) fun changed => ?_
  split
  · exact .bind (.perform fun _ => rfl) fun _ => .pure _
  · exact .pure _

theorem checks_setStatus (id status : String) : Checks codec (setStatus codec id status) := by
  have only : Only (Files.Silent codec) (getIssue codec id) :=
    .bind (only_getRecord _ _) fun _ => only_tryIt _
  refine .after only fun issue => ?_
  split
  · exact .of_only (.pure _)
  · refine .after (only_tryIt _) fun _ => .after ?_ fun revision => ?_
    · exact .catching (.bind (only_getRecord _ _) fun _ => .pure _) fun _ => .pure _
    · exact .after (only_tryIt _) fun _ => .before (checks_putTyped _ _ _ _) fun _ => .pure _

end Task

/-! ## Runs -/

/-- A call that writes a record. -/
inductive Call (Data : Type) where
  | putRecord (record : Record Data)
  | setStatus (id status : String)

namespace Call

variable (codec : Codec Data)

def task : Call Data → Task Data Memory.Answer
  | .putRecord record => do
      let changed ← Task.putRecord codec record
      return .changed changed
  | .setStatus id status => do
      let issue ← Task.setStatus codec id status
      return .issue issue

def program (call : Call Data) :
    Program (Files.Op Data) Files.Answer (Except String Memory.Answer × Unit) :=
  call.task codec ()

/-- The facade's operation of the call, on a disk that does not fail. -/
def op : Call Data → Memory.Op Data
  | .putRecord record => .putRecord {} record
  | .setStatus id status => .setStatus {} id status

variable {codec}

theorem checks_task (call : Call Data) : Task.Checks codec (call.task codec) := by
  cases call with
  | putRecord record => exact .before (Task.checks_putRecord record) fun _ => .pure _
  | setStatus id status => exact .before (Task.checks_setStatus id status) fun _ => .pure _

/-- A call that nobody interrupts is the facade's. -/
theorem alone_task {ι : Type} (thread : ι) (memory : Memory Data) (call : Call Data) :
    (call.task codec).Alone codec thread memory
      ((memory.step codec call.op).2, (memory.step codec call.op).1) := by
  cases call with
  | putRecord record =>
      have puts := Task.alone_putRecord codec thread memory record
      change Task.Alone codec thread memory _
        ((memory.putRecord codec {} record).1.map Memory.Answer.changed,
          (memory.putRecord codec {} record).2)
      generalize memory.putRecord codec {} record = put at *
      rcases put with ⟨message | changed, after⟩
      · exact .bind_error puts
      · exact .bind_ok puts (Task.alone_pure _)
  | setStatus id status =>
      have sets := @Task.alone_setStatus Data ι codec thread memory id status
      change Task.Alone codec thread memory _
        ((IssueRepository.setStatus codec {} memory id status).1.map Memory.Answer.issue,
          (IssueRepository.setStatus codec {} memory id status).2)
      generalize IssueRepository.setStatus codec {} memory id status = set at *
      rcases set with ⟨message | issue, after⟩
      · exact .bind_error sets
      · exact .bind_ok sets (Task.alone_pure _)

end Call

namespace Files

variable {ι : Type} [DecidableEq ι] (codec : Codec Data)

/-- The calls on a memory, none of which has begun. -/
def start (memory : Memory Data) (calls : ι → Call Data) :
    Pool ι (Memory Data) (Op Data) Answer (Except String Memory.Answer × Unit) :=
  { shared := memory, threads := fun thread => (calls thread).program codec }

/-- The calls check the records they write. -/
def checkedWrites (calls : ι → Call Data) :
    CheckedWrites (respond codec) (fun thread => (calls thread).program codec) String (Record Data)
      ℤ where
  found := found
  written := written codec
  lookup memory path := memory.store.files.lookup path
  rank record := record.revision
  environment := anyAnswer
  checks thread events value behaves := ((calls thread).checks_task _ _ _ _ behaves).guarded
  once thread events value behaves := ((calls thread).checks_task _ _ _ _ behaves).once
  finds := by
    intro thread failure memory op answer after answers read isRead
    cases op with
    | read path =>
        cases failure with
        | none =>
            cases answers
            cases isRead
            exact ⟨rfl, rfl⟩
        | some failure =>
            cases answers
            cases isRead
    | rename | project => cases isRead
  writes := by
    intro thread failure memory op answer after answers write isWrite
    cases op with
    | rename path record =>
        cases failure with
        | none =>
            cases answers
            cases isWrite
            simp
        | some failure =>
            cases answers
            cases isWrite
    | read | project => cases isWrite
  keeps := by
    intro thread failure memory op answer after answers path notWritten
    cases op with
    | rename own record =>
        cases failure with
        | none =>
            cases answers
            have isOther : path ≠ own := (notWritten _ rfl).symm
            simp [AList.lookup_insert_ne isOther]
        | some failure =>
            cases answers
            rfl
    | read own =>
        cases failure <;> cases answers
        all_goals rfl
    | project entry =>
        cases failure <;> cases answers
        all_goals rfl

variable (memory : Memory Data) (calls : ι → Call Data) (schedule : List (ι × Option String))

/-- No rename of the run is passed: since the call read the file, no record of its revision or a
higher one was renamed over it. -/
def UnpassedRun : Prop :=
  Guarded (checkedWrites codec calls).Unpassed []
    (Pool.trace (respond codec) (start codec memory calls) schedule)

/-- The call of a thread has renamed a record over a file and reported success. -/
def Updated (thread : ι) (path : String) (record : Record Data) : Prop :=
  (∃ answer, (Pool.run (respond codec) (start codec memory calls) schedule).threads thread =
      .done (.ok answer, ())) ∧
    (thread, (⟨.rename path record, .ok ()⟩ : Event Data)) ∈
      Pool.trace (respond codec) (start codec memory calls) schedule

/-- The record a file holds after the run. -/
def fileAfter (path : String) : Option (Record Data) :=
  (Pool.run (respond codec) (start codec memory calls) schedule).shared.store.files.lookup path

/-- No update of the run is lost: the revision in a file never falls, and where two calls have
written a file, it holds the record of higher revision. -/
structure KeepsUpdates : Prop where
  rises : ∀ earlier middle later path, schedule = earlier ++ middle ++ later →
    ∀ old ∈ fileAfter codec memory calls earlier path,
      ∃ new ∈ fileAfter codec memory calls (earlier ++ middle) path, old.revision ≤ new.revision
  highest : ∀ left right path leftRecord rightRecord, left ≠ right →
    Updated codec memory calls schedule left path leftRecord →
    Updated codec memory calls schedule right path rightRecord →
    (∀ thread record, (thread, (⟨.rename path record, .ok ()⟩ : Event Data)) ∈
      Pool.trace (respond codec) (start codec memory calls) schedule →
        thread = left ∨ thread = right) →
    (leftRecord.revision < rightRecord.revision ∧
        fileAfter codec memory calls schedule path = some (rightRecord.stored codec)) ∨
      (rightRecord.revision < leftRecord.revision ∧
        fileAfter codec memory calls schedule path = some (leftRecord.stored codec))

variable {codec memory calls schedule}

/-- In every run in which no rename is passed, no update is lost. -/
theorem keepsUpdates_of_unpassed (unpassed : UnpassedRun codec memory calls schedule) :
    KeepsUpdates codec memory calls schedule where
  rises earlier middle later path isSchedule old isOld := by
    subst isSchedule
    have prefixUnpassed : Guarded (checkedWrites codec calls).Unpassed []
        (Pool.trace (respond codec) (start codec memory calls) (earlier ++ middle)) := by
      unfold UnpassedRun at unpassed
      rw [Pool.trace_append, guarded_append] at unpassed
      exact unpassed.1
    exact (checkedWrites codec calls).lookup_rises rfl earlier middle prefixUnpassed isOld
  highest left right path leftRecord rightRecord differ isLeft isRight only := by
    have leftWritten : (left, leftRecord.stored codec) ∈ (checkedWrites codec calls).writesTo path
        (Pool.trace (respond codec) (start codec memory calls) schedule) :=
      CheckedWrites.mem_writesTo.mpr ⟨_, isLeft.2, rfl⟩
    have rightWritten : (right, rightRecord.stored codec) ∈
        (checkedWrites codec calls).writesTo path
          (Pool.trace (respond codec) (start codec memory calls) schedule) :=
      CheckedWrites.mem_writesTo.mpr ⟨_, isRight.2, rfl⟩
    refine (checkedWrites codec calls).highest_stays rfl schedule unpassed differ leftWritten
      rightWritten ?_
    rintro ⟨thread, record⟩ isThere
    rcases CheckedWrites.mem_writesTo.mp isThere with ⟨event, isMoment, isWritten⟩
    rcases event with ⟨op, answer⟩
    cases op with
    | rename own written =>
        cases answer with
        | ok done =>
            cases isWritten
            exact only thread written isMoment
        | error message => cases isWritten
    | read | project => cases isWritten

/-! ## Two updates of one record -/

def noIssue : Memory String := { store := {}, projection := {} }

/-- Two calls that put the second and the third revision of an issue. -/
def twoPuts (thread : ℕ) : Call String :=
  if thread = 0 then .putRecord (titleA 2) else .putRecord (titleB 3)

def putTurns (turns : List ℕ) : List (ℕ × Option String) := turns.map fun thread => (thread, none)

/-- One call after the other. -/
theorem successivePuts_kept :
    KeepsUpdates titleCodec noIssue twoPuts (putTurns [0, 0, 1, 1]) :=
  keepsUpdates_of_unpassed (by unfold UnpassedRun; decide +kernel)

theorem overlappingPuts_trace :
    Pool.trace (respond titleCodec) (start titleCodec noIssue twoPuts) (putTurns [0, 1, 1, 0]) =
      [(0, ⟨.read "issue/iss_1.json", .ok none⟩), (1, ⟨.read "issue/iss_1.json", .ok none⟩),
        (1, ⟨.rename "issue/iss_1.json" (titleB 3), .ok ()⟩),
        (0, ⟨.rename "issue/iss_1.json" (titleA 2), .ok ()⟩)] := by
  rfl

/-- Both calls find no issue, the third revision is stored, and the second is renamed over it:
the revision falls, and the file does not hold the record of higher revision, though both calls
report success. -/
theorem overlappingPuts_lost :
    (∃ old ∈ fileAfter titleCodec noIssue twoPuts (putTurns [0, 1, 1]) "issue/iss_1.json",
      ∃ new ∈ fileAfter titleCodec noIssue twoPuts (putTurns [0, 1, 1, 0]) "issue/iss_1.json",
        new.revision < old.revision) ∧
      ¬ ∀ (memory : Memory String) (calls : ℕ → Call String)
        (schedule : List (ℕ × Option String)), KeepsUpdates titleCodec memory calls schedule := by
  have isLast : fileAfter titleCodec noIssue twoPuts (putTurns [0, 1, 1, 0]) "issue/iss_1.json" =
      some (titleA 2) := by decide +kernel
  constructor
  · refine ⟨titleB 3, ?_, titleA 2, isLast, by decide⟩
    change fileAfter titleCodec noIssue twoPuts (putTurns [0, 1, 1]) "issue/iss_1.json" = _
    decide +kernel
  · intro keeps
    have updated := (keeps noIssue twoPuts (putTurns [0, 1, 1, 0])).highest 0 1
      "issue/iss_1.json" (titleA 2) (titleB 3) (by decide) ⟨⟨.changed true, by rfl⟩, ?_⟩
      ⟨⟨.changed true, by rfl⟩, ?_⟩ ?_
    · rcases updated with ⟨_, isThere⟩ | ⟨isLower, _⟩
      · rw [isLast] at isThere
        exact absurd isThere (by decide)
      · exact absurd isLower (by decide)
    · rw [overlappingPuts_trace]
      simp
    · rw [overlappingPuts_trace]
      simp
    · rw [overlappingPuts_trace]
      intro thread record isThere
      simp only [List.mem_cons, Prod.mk.injEq, List.not_mem_nil, or_false] at isThere
      omega

end Files

end Aa.Memory
