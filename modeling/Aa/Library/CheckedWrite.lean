import Mathlib.Data.List.DropRight
import Mathlib.Order.Lattice
import Aa.Library.Threads

/-!
# Checked writes

Threads share a map of cells. A thread writes a cell right after it has read the cell and found
no value, or one of lower rank; other threads may write the cell in between. The ranks of a
cell rise as long as no write is passed: nothing of its rank or a higher one was written since
its thread read the cell.
-/

namespace Aa.Library

universe u v w

variable {ι Shared Choice : Type} [DecidableEq ι] {Op : Type u} {Answer : Op → Type v} {α : Type w}

/-- Threads whose events are read as reads and checked writes of cells. -/
structure CheckedWrites (respond : Pool.Responder ι Shared Choice Op Answer)
    (threads : ι → Program Op Answer α) (Key Value Rank : Type) [LinearOrder Rank] where
  found : Event Op Answer → Option (Key × Option Value)
  written : Event Op Answer → Option (Key × Value)
  lookup : Shared → Key → Option Value
  rank : Value → Rank
  environment : (op : Op) → Answer op
  checks : ∀ thread events value, (threads thread).Behaves events value →
    Guarded (fun past event => ∀ write ∈ written event, ∃ last ∈ past.getLast?, ∃ old,
      found last = some (write.1, old) ∧ ∀ value ∈ old, rank value < rank write.2) [] events
  once : ∀ thread events value, (threads thread).Behaves events value →
    (events.filterMap written).length ≤ 1
  finds : ∀ thread choice shared op answer after,
    respond thread choice shared op = some (answer, after) →
      ∀ read ∈ found ⟨op, answer⟩, written ⟨op, answer⟩ = none ∧ lookup shared read.1 = read.2
  writes : ∀ thread choice shared op answer after,
    respond thread choice shared op = some (answer, after) →
      ∀ write ∈ written ⟨op, answer⟩, lookup after write.1 = some write.2
  keeps : ∀ thread choice shared op answer after,
    respond thread choice shared op = some (answer, after) →
      ∀ key, (∀ write ∈ written ⟨op, answer⟩, write.1 ≠ key) → lookup after key = lookup shared key

namespace CheckedWrites

variable {respond : Pool.Responder ι Shared Choice Op Answer} {threads : ι → Program Op Answer α}
  {Key Value Rank : Type} [LinearOrder Rank]
  (checked : CheckedWrites respond threads Key Value Rank)

/-- What happened after the last event of a thread. -/
def since (thread : ι) (moments : List (ι × Event Op Answer)) : List (ι × Event Op Answer) :=
  moments.rtakeWhile fun moment => moment.1 ≠ thread

/-- A write is not passed: what was written to its cell since its thread read it has lower rank. -/
def Unpassed (past : List (ι × Event Op Answer)) (moment : ι × Event Op Answer) : Prop :=
  ∀ write ∈ checked.written moment.2, ∀ other ∈ since moment.1 past,
    ∀ between ∈ checked.written other.2, between.1 = write.1 →
      checked.rank between.2 < checked.rank write.2

instance [DecidableEq Key] (past : List (ι × Event Op Answer)) (moment : ι × Event Op Answer) :
    Decidable (checked.Unpassed past moment) :=
  inferInstanceAs (Decidable (∀ write ∈ checked.written moment.2, ∀ other ∈ since moment.1 past,
    ∀ between ∈ checked.written other.2, between.1 = write.1 →
      checked.rank between.2 < checked.rank write.2))

theorem since_of_ne {thread other : ι} (isOther : other ≠ thread)
    (moments : List (ι × Event Op Answer)) (event : Event Op Answer) :
    since thread (moments ++ [(other, event)]) = since thread moments ++ [(other, event)] := by
  simp [since, List.rtakeWhile, isOther]

variable {checked}

omit [DecidableEq ι] in
theorem keeps_of_not_written {thread : ι} {choice : Choice} {shared after : Shared} {op : Op}
    {answer : Answer op} (answers : respond thread choice shared op = some (answer, after))
    (notWritten : checked.written ⟨op, answer⟩ = none) (key : Key) :
    checked.lookup after key = checked.lookup shared key := by
  refine checked.keeps thread choice shared op answer after answers key ?_
  simp [notWritten]

/-- A cell holds what the last event of a thread read in it, or what was written since. -/
theorem lookup_since {start : Pool ι Shared Op Answer α} (schedule : List (ι × Choice))
    {thread : ι} {last : Event Op Answer} {read : Key × Option Value}
    (isLast : last ∈ (Pool.own thread (Pool.trace respond start schedule)).getLast?)
    (isRead : read ∈ checked.found last) :
    checked.lookup (Pool.run respond start schedule).shared read.1 = read.2 ∨
      ∃ other ∈ since thread (Pool.trace respond start schedule),
        ∃ write ∈ checked.written other.2, write.1 = read.1 ∧
          checked.lookup (Pool.run respond start schedule).shared read.1 = some write.2 := by
  revert thread last read
  refine Pool.run_induction (fun moments pool => ∀ {thread : ι} {last : Event Op Answer}
    {read : Key × Option Value}, last ∈ (Pool.own thread moments).getLast? →
      read ∈ checked.found last → checked.lookup pool.shared read.1 = read.2 ∨
        ∃ other ∈ since thread moments, ∃ write ∈ checked.written other.2, write.1 = read.1 ∧
          checked.lookup pool.shared read.1 = some write.2) ?_ ?_
  · intro thread last read isLast
    simp at isLast
  · intro moments pool mover choice op next answer after ih isThread answers thread last read
      isLast isRead
    rw [Pool.advance_shared]
    by_cases isMover : mover = thread
    · subst isMover
      rw [Pool.own_append, Pool.own_self, List.getLast?_concat, Option.mem_some_iff] at isLast
      subst isLast
      rcases checked.finds _ _ _ _ _ _ answers read isRead with ⟨notWritten, isFound⟩
      left
      rw [keeps_of_not_written answers notWritten, isFound]
    · rw [Pool.own_append, Pool.own_of_ne isMover, List.append_nil] at isLast
      rw [since_of_ne isMover]
      by_cases isWritten : ∃ write ∈ checked.written ⟨op, answer⟩, write.1 = read.1
      · rcases isWritten with ⟨write, isWrite, isKey⟩
        right
        refine ⟨(mover, ⟨op, answer⟩), by simp, write, isWrite, isKey, ?_⟩
        rw [← isKey]
        exact checked.writes _ _ _ _ _ _ answers write isWrite
      · have isKept : checked.lookup after read.1 = checked.lookup pool.shared read.1 :=
          checked.keeps _ _ _ _ _ _ answers read.1 fun write isWrite isKey =>
            isWritten ⟨write, isWrite, isKey⟩
        rw [isKept]
        rcases ih isLast isRead with isFound | ⟨other, isOther, write, isWrite, isKey, isThere⟩
        · exact .inl isFound
        · exact .inr ⟨other, List.mem_append_left _ isOther, write, isWrite, isKey, isThere⟩

section Runs

variable {start : Pool ι Shared Op Answer α}

/-- A write that is not passed replaces a value of lower rank. -/
theorem rank_lt_of_write (isStart : start.threads = threads) (schedule : List (ι × Choice))
    {turn : ι × Choice} {op : Op} {next : Answer op → Program Op Answer α} {answer : Answer op}
    (isThread : (Pool.run respond start schedule).threads turn.1 = .perform op next)
    (unpassed : checked.Unpassed (Pool.trace respond start schedule) (turn.1, ⟨op, answer⟩))
    {write : Key × Value} (isWrite : write ∈ checked.written ⟨op, answer⟩) {old : Value}
    (isOld : old ∈ checked.lookup (Pool.run respond start schedule).shared write.1) :
    checked.rank old < checked.rank write.2 := by
  have reaches := Pool.reaches_own respond start schedule turn.1
  rw [isThread, isStart] at reaches
  rcases (reaches.snoc answer).completes checked.environment with ⟨later, value, behaves, _⟩
  have guarded := (guarded_append.mp (checked.checks _ _ _ behaves)).1
  rcases (guarded_append.mp guarded).2.1 write isWrite with ⟨last, isLast, found, isFound, lower⟩
  rw [List.nil_append] at isLast
  rcases lookup_since schedule isLast isFound with isKept | ⟨other, isOther, between, isBetween, isKey, isThere⟩
  · rw [isKept] at isOld
    exact lower old isOld
  · rw [isThere, Option.mem_some_iff] at isOld
    subst isOld
    exact unpassed write isWrite other isOther between isBetween isKey

variable (checked) in
/-- In a run without passed writes, the rank of a cell never falls. -/
theorem lookup_rises (isStart : start.threads = threads) (earlier later : List (ι × Choice))
    (unpassed : Guarded checked.Unpassed [] (Pool.trace respond start (earlier ++ later)))
    {key : Key} {old : Value}
    (isOld : old ∈ checked.lookup (Pool.run respond start earlier).shared key) :
    ∃ new ∈ checked.lookup (Pool.run respond start (earlier ++ later)).shared key,
      checked.rank old ≤ checked.rank new := by
  induction later using List.reverseRecOn with
  | nil => exact ⟨old, by simpa using isOld, le_refl _⟩
  | append_singleton later turn ih =>
      rw [← List.append_assoc, Pool.trace_snoc, guarded_append] at unpassed
      rcases ih unpassed.1 with ⟨new, isNew, isLower⟩
      rw [← List.append_assoc, Pool.run_snoc]
      rcases Pool.step_cases respond (Pool.run respond start (earlier ++ later)) turn with
        waits | ⟨op, next, answer, after, isThread, answers, moves⟩
      · rw [waits]
        exact ⟨new, isNew, isLower⟩
      · rw [moves] at unpassed ⊢
        rw [Pool.advance_shared]
        by_cases isWritten : ∃ write ∈ checked.written ⟨op, answer⟩, write.1 = key
        · rcases isWritten with ⟨write, isWrite, rfl⟩
          have rises := rank_lt_of_write isStart (earlier ++ later) isThread unpassed.2.1 isWrite isNew
          exact ⟨write.2, checked.writes _ _ _ _ _ _ answers write isWrite,
            le_trans isLower (le_of_lt rises)⟩
        · have isKept := checked.keeps _ _ _ _ _ _ answers key fun write isWrite isKey =>
            isWritten ⟨write, isWrite, isKey⟩
          exact ⟨new, by rwa [isKept], isLower⟩

end Runs

/-! ## The values written to a cell -/

section Written

variable [DecidableEq Key]

variable (checked) in
/-- The values written to a cell, with their threads. -/
def writesTo (key : Key) (moments : List (ι × Event Op Answer)) : List (ι × Value) :=
  moments.filterMap fun moment => (checked.written moment.2).bind fun write =>
    if write.1 = key then some (moment.1, write.2) else none

omit [DecidableEq ι] in
theorem writesTo_append (key : Key) (first second : List (ι × Event Op Answer)) :
    checked.writesTo key (first ++ second) =
      checked.writesTo key first ++ checked.writesTo key second :=
  List.filterMap_append

omit [DecidableEq ι] in
theorem writesTo_self (key : Key) (thread : ι) (event : Event Op Answer) :
    checked.writesTo key [(thread, event)] = ((checked.written event).bind fun write =>
      if write.1 = key then some (thread, write.2) else none).toList := by
  cases isWritten : (checked.written event).bind fun write =>
      if write.1 = key then some (thread, write.2) else none with
  | none => simp [writesTo, isWritten]
  | some write => simp [writesTo, isWritten]

omit [DecidableEq ι] in
theorem mem_writesTo {key : Key} {moments : List (ι × Event Op Answer)} {thread : ι}
    {value : Value} :
    (thread, value) ∈ checked.writesTo key moments ↔
      ∃ event, (thread, event) ∈ moments ∧ checked.written event = some (key, value) := by
  simp only [writesTo, List.mem_filterMap, Option.bind_eq_some_iff, Prod.exists]
  constructor
  · rintro ⟨own, event, isThere, cell, written, isWritten, isCell⟩
    split at isCell
    · rename_i isKey
      cases isCell
      exact ⟨event, isThere, isKey ▸ isWritten⟩
    · cases isCell
  · rintro ⟨event, isThere, isWritten⟩
    exact ⟨thread, event, isThere, key, value, isWritten, by simp⟩

variable {start : Pool ι Shared Op Answer α}

/-- A thread writes one value only. -/
theorem eq_of_mem_writesTo (isStart : start.threads = threads) (schedule : List (ι × Choice))
    {key : Key} {thread : ι} {value other : Value}
    (isThere : (thread, value) ∈ checked.writesTo key (Pool.trace respond start schedule))
    (isOther : (thread, other) ∈ checked.writesTo key (Pool.trace respond start schedule)) :
    value = other := by
  rcases mem_writesTo.mp isThere with ⟨event, isEvent, isWritten⟩
  rcases mem_writesTo.mp isOther with ⟨otherEvent, isOtherEvent, otherWritten⟩
  have reaches := Pool.reaches_own respond start schedule thread
  rw [isStart] at reaches
  rcases reaches.completes checked.environment with ⟨later, result, behaves, _⟩
  have isOnce := checked.once _ _ _ behaves
  have isIn : (key, value) ∈ (Pool.own thread (Pool.trace respond start schedule) ++ later).filterMap
      checked.written :=
    List.mem_filterMap.mpr ⟨event, List.mem_append_left _ (Pool.mem_own.mpr isEvent), isWritten⟩
  have otherIn : (key, other) ∈ (Pool.own thread (Pool.trace respond start schedule) ++
      later).filterMap checked.written :=
    List.mem_filterMap.mpr
      ⟨otherEvent, List.mem_append_left _ (Pool.mem_own.mpr isOtherEvent), otherWritten⟩
  generalize (Pool.own thread (Pool.trace respond start schedule) ++ later).filterMap
    checked.written = writes at isOnce isIn otherIn
  match writes, isOnce with
  | [], _ => cases isIn
  | [_], _ =>
      rw [List.mem_singleton] at isIn otherIn
      exact (Prod.mk.inj (isIn.trans otherIn.symm)).2

omit [DecidableEq ι] [DecidableEq Key] in
/-- A value of a rising list is the last, or below it. -/
theorem sorted_last {writes : List (ι × Value)} {write : ι × Value}
    (sorted : writes.Pairwise fun left right => checked.rank left.2 < checked.rank right.2)
    (isThere : write ∈ writes) :
    ∃ last ∈ writes.getLast?, write = last ∨ checked.rank write.2 < checked.rank last.2 := by
  rcases List.eq_nil_or_concat writes with rfl | ⟨earlier, last, rfl⟩
  · cases isThere
  · rw [List.concat_eq_append] at sorted isThere ⊢
    refine ⟨last, by simp, ?_⟩
    rcases List.mem_append.mp isThere with isEarlier | isLast
    · exact .inr ((List.pairwise_append.mp sorted).2.2 write isEarlier last (by simp))
    · exact .inl (List.mem_singleton.mp isLast)

/-- In a run without passed writes, the values written to a cell have rising ranks, and the cell
holds the last of them. -/
theorem writesTo_sorted (isStart : start.threads = threads) (schedule : List (ι × Choice))
    (unpassed : Guarded checked.Unpassed [] (Pool.trace respond start schedule)) (key : Key) :
    (checked.writesTo key (Pool.trace respond start schedule)).Pairwise
        (fun left right => checked.rank left.2 < checked.rank right.2) ∧
      ∀ last ∈ (checked.writesTo key (Pool.trace respond start schedule)).getLast?,
        checked.lookup (Pool.run respond start schedule).shared key = some last.2 := by
  induction schedule using List.reverseRecOn with
  | nil => simp [writesTo]
  | append_singleton schedule turn ih =>
      rw [Pool.trace_snoc, guarded_append] at unpassed
      rcases ih unpassed.1 with ⟨sorted, isHeld⟩
      rw [Pool.trace_snoc, Pool.run_snoc]
      rcases Pool.step_cases respond (Pool.run respond start schedule) turn with
        waits | ⟨op, next, answer, after, isThread, answers, moves⟩
      · rw [waits, Option.toList_none, List.append_nil]
        exact ⟨sorted, isHeld⟩
      · rw [moves] at unpassed ⊢
        rw [Option.toList_some, writesTo_append, writesTo_self, Pool.advance_shared]
        by_cases isWritten : ∃ write ∈ checked.written ⟨op, answer⟩, write.1 = key
        · rcases isWritten with ⟨write, isWrite, rfl⟩
          have isSome : checked.written ⟨op, answer⟩ = some write := isWrite
          rw [isSome, Option.bind_some, if_pos rfl, Option.toList_some]
          constructor
          · refine List.pairwise_append.mpr ⟨sorted, List.pairwise_singleton _ _, ?_⟩
            intro earlier isEarlier later isLater
            rw [List.mem_singleton.mp isLater]
            rcases sorted_last sorted isEarlier with ⟨last, isLast, isBefore⟩
            have rises : checked.rank last.2 < checked.rank write.2 :=
              rank_lt_of_write isStart schedule isThread unpassed.2.1 isWrite (isHeld last isLast)
            rcases isBefore with rfl | isBefore
            · exact rises
            · exact lt_trans isBefore rises
          · intro last isLast
            rw [List.getLast?_concat, Option.mem_some_iff] at isLast
            subst isLast
            exact checked.writes _ _ _ _ _ _ answers write isWrite
        · have isNone : ((checked.written ⟨op, answer⟩).bind fun write =>
              if write.1 = key then some (turn.1, write.2) else none) = none := by
            refine Option.bind_eq_none_iff.mpr fun write isWrite => if_neg fun isKey => ?_
            exact isWritten ⟨write, isWrite, isKey⟩
          have isKept := checked.keeps _ _ _ _ _ _ answers key fun write isWrite isKey =>
            isWritten ⟨write, isWrite, isKey⟩
          rw [isNone, Option.toList_none, List.append_nil, isKept]
          exact ⟨sorted, isHeld⟩

variable (checked) in
/-- Of two threads that alone wrote a cell in a run without passed writes, the cell holds the
value of higher rank. -/
theorem highest_stays (isStart : start.threads = threads) (schedule : List (ι × Choice))
    (unpassed : Guarded checked.Unpassed [] (Pool.trace respond start schedule)) {key : Key}
    {left right : ι} {leftValue rightValue : Value} (differ : left ≠ right)
    (isLeft : (left, leftValue) ∈ checked.writesTo key (Pool.trace respond start schedule))
    (isRight : (right, rightValue) ∈ checked.writesTo key (Pool.trace respond start schedule))
    (only : ∀ write ∈ checked.writesTo key (Pool.trace respond start schedule),
      write.1 = left ∨ write.1 = right) :
    (checked.rank leftValue < checked.rank rightValue ∧
        checked.lookup (Pool.run respond start schedule).shared key = some rightValue) ∨
      (checked.rank rightValue < checked.rank leftValue ∧
        checked.lookup (Pool.run respond start schedule).shared key = some leftValue) := by
  rcases writesTo_sorted isStart schedule unpassed key with ⟨sorted, isHeld⟩
  rcases sorted_last sorted isLeft with ⟨last, isLast, leftBefore⟩
  rcases sorted_last sorted isRight with ⟨other, isOther, rightBefore⟩
  cases Option.mem_unique isLast isOther
  have lastHeld := isHeld last isLast
  have lastThere := List.mem_of_getLast? isLast
  rcases only last lastThere with isLeftLast | isRightLast
  · have isValue : last = (left, leftValue) :=
      Prod.ext isLeftLast (eq_of_mem_writesTo isStart schedule (isLeftLast ▸ lastThere) isLeft)
    subst isValue
    rcases rightBefore with isSame | isBelow
    · exact absurd (congrArg Prod.fst isSame).symm differ
    · exact .inr ⟨isBelow, lastHeld⟩
  · have isValue : last = (right, rightValue) :=
      Prod.ext isRightLast (eq_of_mem_writesTo isStart schedule (isRightLast ▸ lastThere) isRight)
    subst isValue
    rcases leftBefore with isSame | isBelow
    · exact absurd (congrArg Prod.fst isSame) differ
    · exact .inl ⟨isBelow, lastHeld⟩

end Written

end CheckedWrites

end Aa.Library
