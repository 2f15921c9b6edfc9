import Aa.Library.Threads

/-!
# Requests that share a cache

Each of several threads looks a key up in a cache, executes an operation on a miss, and
stores the result; the three are separate operations on the shared state. `Memoized` says
how the events of a pool are read that way. The results of this file are about all its
runs: as long as no request misses a key while another that missed it has not returned,
the key is executed once, and every request that is answered gets that result.
-/

namespace Aa.Library

universe u v w

/-- What an event of a request means to the cache. -/
inductive Memo (Key Result Yield : Type)
  | hit (key : Key) (result : Result)
  | miss (key : Key)
  | ran (key : Key) (yield : Yield)
  | stored (key : Key) (result : Result)

namespace Memo

variable {Key Result Yield : Type} {essence : Result → Yield}

/-- The course of a request that has returned. -/
inductive Course (essence : Result → Yield) : List (Memo Key Result Yield) → Prop
  | unread : Course essence []
  | answered (key : Key) (result : Result) : Course essence [.hit key result]
  | failed (key : Key) : Course essence [.miss key]
  | executed (key : Key) (result : Result) :
      Course essence [.miss key, .ran key (essence result), .stored key result]

/-- The course of a request that may still be on its way. -/
inductive Partway (essence : Result → Yield) : List (Memo Key Result Yield) → Prop
  | unread : Partway essence []
  | answered (key : Key) (result : Result) : Partway essence [.hit key result]
  | missed (key : Key) : Partway essence [.miss key]
  | ran (key : Key) (result : Result) : Partway essence [.miss key, .ran key (essence result)]
  | executed (key : Key) (result : Result) :
      Partway essence [.miss key, .ran key (essence result), .stored key result]

theorem Course.partway {memos later : List (Memo Key Result Yield)}
    (course : Course essence (memos ++ later)) : Partway essence memos := by
  generalize isWhole : memos ++ later = whole at course
  cases course with
  | unread =>
      rw [(List.append_eq_nil_iff.mp isWhole).1]
      exact .unread
  | answered key result =>
      rcases List.append_eq_singleton_iff.mp isWhole with ⟨rfl, _⟩ | ⟨rfl, _⟩
      · exact .unread
      · exact .answered key result
  | failed key =>
      rcases List.append_eq_singleton_iff.mp isWhole with ⟨rfl, _⟩ | ⟨rfl, _⟩
      · exact .unread
      · exact .missed key
  | executed key result =>
      rcases List.append_eq_cons_iff.mp isWhole with ⟨rfl, _⟩ | ⟨tail, rfl, isTail⟩
      · exact .unread
      rcases List.append_eq_cons_iff.mp isTail.symm with ⟨rfl, _⟩ | ⟨last, rfl, isLast⟩
      · exact .missed key
      rcases List.append_eq_singleton_iff.mp isLast.symm with ⟨rfl, _⟩ | ⟨rfl, _⟩
      · exact .ran key result
      · exact .executed key result

/-- The outcome of an execution of the key. -/
def ranWith [DecidableEq Key] (key : Key) : Memo Key Result Yield → Option Yield
  | .ran own yield => if own = key then some yield else none
  | _ => none

namespace Partway

variable {memos : List (Memo Key Result Yield)} {key : Key}

theorem miss_of_ran {yield : Yield} (partway : Partway essence memos)
    (isRan : .ran key yield ∈ memos) : .miss key ∈ memos := by
  cases partway <;> simp_all

theorem ran_of_stored {result : Result} (partway : Partway essence memos)
    (isStored : .stored key result ∈ memos) : .ran key (essence result) ∈ memos := by
  cases partway <;> simp_all

theorem stored_unique {left right : Result} (partway : Partway essence memos)
    (isLeft : .stored key left ∈ memos) (isRight : .stored key right ∈ memos) : left = right := by
  cases partway <;> simp_all

theorem ranWith_length [DecidableEq Key] (partway : Partway essence memos) :
    (memos.filterMap (ranWith key)).length ≤ 1 := by
  cases partway with
  | unread | answered | missed => simp [ranWith, List.filterMap_cons]
  | ran own result | executed own result =>
      by_cases isKey : own = key
      all_goals simp [ranWith, List.filterMap_cons, isKey]

end Partway

/-- A request that has returned and missed the key stored its result or never executed. -/
theorem Course.of_miss {memos : List (Memo Key Result Yield)} {key : Key}
    (course : Course essence memos) (isMiss : .miss key ∈ memos) :
    (∃ result, .stored key result ∈ memos) ∨ ∀ yield, .ran key yield ∉ memos := by
  cases course with
  | unread | answered | failed => simp
  | executed own result =>
      left
      have isKey : key = own := by simpa using isMiss
      exact ⟨result, by simp [isKey]⟩

end Memo

variable {ι Shared Choice : Type} [DecidableEq ι] {Op : Type u} {Answer : Op → Type v} {α : Type w}

/-- Threads whose events are read as lookups, executions and stores of a shared cache. -/
structure Memoized (respond : Pool.Responder ι Shared Choice Op Answer)
    (threads : ι → Program Op Answer α) (Key Result Yield : Type) [DecidableEq Key] where
  reads : ι → Event Op Answer → Option (Memo Key Result Yield)
  lookup : Shared → Key → Option Result
  essence : Result → Yield
  environment : (op : Op) → Answer op
  /-- The key a thread asked for and the result it returned, if it succeeded. -/
  returned : ι → α → Option (Key × Result)
  course : ∀ thread events value, (threads thread).Behaves events value →
    Memo.Course essence (events.filterMap (reads thread))
  answered : ∀ thread events value key result, (threads thread).Behaves events value →
    returned thread value = some (key, result) →
      .hit key result ∈ events.filterMap (reads thread) ∨
        .stored key result ∈ events.filterMap (reads thread)
  looks : ∀ thread choice shared op answer after key,
    respond thread choice shared op = some (answer, after) →
      (∀ result, reads thread ⟨op, answer⟩ = some (.hit key result) →
        lookup shared key = some result) ∧
      (reads thread ⟨op, answer⟩ = some (.miss key) → lookup shared key = none)
  stores : ∀ thread choice shared op answer after key,
    respond thread choice shared op = some (answer, after) →
      (∃ result, reads thread ⟨op, answer⟩ = some (.stored key result) ∧
        lookup after key = some result) ∨
      (∀ result, reads thread ⟨op, answer⟩ ≠ some (.stored key result)) ∧
        lookup after key = lookup shared key

namespace Memoized

variable {respond : Pool.Responder ι Shared Choice Op Answer} {threads : ι → Program Op Answer α}
  {Key Result Yield : Type} [DecidableEq Key]
  (memoized : Memoized respond threads Key Result Yield)

/-- What a thread did, as far as the cache is concerned. -/
def memos (thread : ι) (moments : List (ι × Event Op Answer)) : List (Memo Key Result Yield) :=
  (Pool.own thread moments).filterMap (memoized.reads thread)

/-- The executions of a key, with the threads that made them. -/
def executions (key : Key) (moments : List (ι × Event Op Answer)) : List (ι × Yield) :=
  moments.filterMap fun moment =>
    ((memoized.reads moment.1 moment.2).bind (Memo.ranWith key)).map (moment.1, ·)

/-- The thread has missed the key and has not returned. -/
def InFlight (key : Key) (moments : List (ι × Event Op Answer)) (thread : ι) : Prop :=
  .miss key ∈ memoized.memos thread moments ∧
    ∀ value, ¬ (threads thread).Behaves (Pool.own thread moments) value

/-- A thread misses the key only when no thread that missed it is on its way. -/
def Serial (key : Key) (past : List (ι × Event Op Answer)) (moment : ι × Event Op Answer) : Prop :=
  memoized.reads moment.1 moment.2 = some (.miss key) →
    ∀ thread, ¬ memoized.InFlight key past thread

/-- A thread was answered with the result, from the cache or by its own execution. -/
def Answered (key : Key) (moments : List (ι × Event Op Answer)) (thread : ι) (result : Result) :
    Prop :=
  .hit key result ∈ memoized.memos thread moments ∨
    .stored key result ∈ memoized.memos thread moments

/-- A thread has returned a result for the key. -/
def Returned (key : Key) (pool : Pool ι Shared Op Answer α) (thread : ι) (result : Result) : Prop :=
  ∃ value, pool.threads thread = .done value ∧ memoized.returned thread value = some (key, result)

/-- The key was executed at most once, and whoever succeeded returned the one result. -/
structure AtMostOnce (key : Key) (moments : List (ι × Event Op Answer))
    (pool : Pool ι Shared Op Answer α) : Prop where
  executed : (memoized.executions key moments).length ≤ 1
  carried : ∀ thread result, memoized.Returned key pool thread result →
    ∃ executor, memoized.executions key moments = [(executor, memoized.essence result)]
  agree : ∀ left right first second, memoized.Returned key pool left first →
    memoized.Returned key pool right second → first = second

/-- In the run no thread misses the key while another that missed it is on its way. -/
def SerialRun (key : Key) (start : Pool ι Shared Op Answer α) (schedule : List (ι × Choice)) :
    Prop :=
  Guarded (memoized.Serial key) [] (Pool.trace respond start schedule)

/-- The key was executed at most once in the run. -/
def OnceRun (key : Key) (start : Pool ι Shared Op Answer α) (schedule : List (ι × Choice)) :
    Prop :=
  memoized.AtMostOnce key (Pool.trace respond start schedule) (Pool.run respond start schedule)

/-- The operation misses some key. -/
def isMiss (moment : ι × Event Op Answer) : Bool :=
  match memoized.reads moment.1 moment.2 with
  | some (.miss _) => true
  | _ => false

variable {memoized} {key : Key} {moments : List (ι × Event Op Answer)} {thread : ι}

theorem mem_memos {memo : Memo Key Result Yield} :
    memo ∈ memoized.memos thread moments ↔
      ∃ event, (thread, event) ∈ moments ∧ memoized.reads thread event = some memo := by
  simp [memos, Pool.mem_own]

theorem memos_append (first second : List (ι × Event Op Answer)) :
    memoized.memos thread (first ++ second) =
      memoized.memos thread first ++ memoized.memos thread second := by
  simp [memos, Pool.own_append]

theorem memos_self (thread : ι) (event : Event Op Answer) :
    memoized.memos thread [(thread, event)] = (memoized.reads thread event).toList := by
  cases isRead : memoized.reads thread event <;> simp [memos, isRead]

omit [DecidableEq ι] in
theorem executions_self (thread : ι) (event : Event Op Answer) :
    memoized.executions key [(thread, event)] =
      (((memoized.reads thread event).bind (Memo.ranWith key)).map (thread, ·)).toList := by
  rw [executions, List.filterMap_cons]
  cases ((memoized.reads thread event).bind (Memo.ranWith key)).map (thread, ·) <;> rfl

theorem mem_executions {yield : Yield} :
    (thread, yield) ∈ memoized.executions key moments ↔
      .ran key yield ∈ memoized.memos thread moments := by
  rw [mem_memos]
  constructor
  · intro isThere
    rcases List.mem_filterMap.mp isThere with ⟨⟨other, event⟩, isMoment, isRan⟩
    rcases Option.map_eq_some_iff.mp isRan with ⟨own, isOwn, isPair⟩
    cases isPair
    rcases Option.bind_eq_some_iff.mp isOwn with ⟨memo, isMemo, ranWith⟩
    cases memo with
    | ran ranKey ranYield =>
        simp only [Memo.ranWith, Option.ite_none_right_eq_some, Option.some.injEq] at ranWith
        rcases ranWith with ⟨rfl, rfl⟩
        exact ⟨event, isMoment, isMemo⟩
    | hit | miss | stored => simp [Memo.ranWith] at ranWith
  · rintro ⟨event, isMoment, isRan⟩
    exact List.mem_filterMap.mpr ⟨_, isMoment, by simp [isRan, Memo.ranWith]⟩

/-- If one thread makes all executions, they are those among what it did. -/
theorem executions_eq_of_thread
    (single : ∀ other yield, (other, yield) ∈ memoized.executions key moments → other = thread) :
    (memoized.executions key moments).map Prod.snd =
      (memoized.memos thread moments).filterMap (Memo.ranWith key) := by
  induction moments with
  | nil => rfl
  | cons moment rest ih =>
      have splits : memoized.executions key (moment :: rest) =
          memoized.executions key [moment] ++ memoized.executions key rest :=
        @List.filterMap_append _ _ [moment] rest _
      have memosSplit : memoized.memos thread (moment :: rest) =
          memoized.memos thread [moment] ++ memoized.memos thread rest := memos_append [moment] rest
      have restSingle := ih fun other yield isThere =>
        single other yield (splits ▸ List.mem_append_right _ isThere)
      rw [splits, List.map_append, restSingle, memosSplit, List.filterMap_append]
      congr 1
      rcases moment with ⟨other, event⟩
      by_cases isThread : other = thread
      · subst isThread
        rw [memos_self, executions_self]
        cases memoized.reads other event with
        | none => rfl
        | some memo => cases isRan : Memo.ranWith key memo <;> simp [isRan]
      · rw [executions_self]
        cases isRan : (memoized.reads other event).bind (Memo.ranWith key) with
        | none => simp [memos, Pool.own_of_ne isThread]
        | some yield =>
            refine absurd (single other yield ?_) isThread
            rw [splits, executions_self, isRan]
            exact List.mem_append_left _ (by simp)

/-! ### What the cache holds -/

/-- The cache holds a result for the key exactly if one was stored. -/
def Holds (memoized : Memoized respond threads Key Result Yield) (key : Key)
    (moments : List (ι × Event Op Answer)) (shared : Shared) : Prop :=
  (∀ result, memoized.lookup shared key = some result →
    ∃ thread, .stored key result ∈ memoized.memos thread moments) ∧
  (memoized.lookup shared key = none →
    ∀ thread result, .stored key result ∉ memoized.memos thread moments)

/-- A hit was stored before, and a miss was not. -/
def Coherent (memoized : Memoized respond threads Key Result Yield) (key : Key)
    (past : List (ι × Event Op Answer)) (moment : ι × Event Op Answer) : Prop :=
  (∀ result, memoized.reads moment.1 moment.2 = some (.hit key result) →
    ∃ thread, .stored key result ∈ memoized.memos thread past) ∧
  (memoized.reads moment.1 moment.2 = some (.miss key) →
    ∀ thread result, .stored key result ∉ memoized.memos thread past)

variable {start : Pool ι Shared Op Answer α} {schedule : List (ι × Choice)}

theorem coherent_trace (fresh : memoized.lookup start.shared key = none) :
    Guarded (memoized.Coherent key) [] (Pool.trace respond start schedule) := by
  have initial : memoized.Holds key [] start.shared :=
    ⟨fun result isThere => by simp [fresh] at isThere, fun _ thread result => by simp [memos]⟩
  refine (Pool.guarded_trace (memoized.Holds key) initial ?_).1
  intro past shared mover choice op answer after holds isAnswer
  have looks := memoized.looks mover choice shared op answer after key isAnswer
  refine ⟨⟨fun result isHit => holds.1 result (looks.1 result isHit),
    fun isMiss => holds.2 (looks.2 isMiss)⟩, ?_⟩
  rcases memoized.stores mover choice shared op answer after key isAnswer with
    ⟨result, isStored, isThere⟩ | ⟨notStored, isKept⟩
  · constructor
    · intro found isFound
      cases isThere.symm.trans isFound
      exact ⟨mover, mem_memos.mpr ⟨⟨op, answer⟩, by simp, isStored⟩⟩
    · intro isNone
      rw [isThere] at isNone
      cases isNone
  · constructor
    · intro found isFound
      rcases holds.1 found (isKept ▸ isFound) with ⟨storer, wasStored⟩
      exact ⟨storer, by rw [memos_append]; exact List.mem_append_left _ wasStored⟩
    · intro isNone storer result wasStored
      rw [memos_append] at wasStored
      rcases List.mem_append.mp wasStored with isPast | isNow
      · exact holds.2 (isKept ▸ isNone) storer result isPast
      · rcases mem_memos.mp isNow with ⟨event, isMoment, isStored⟩
        cases List.mem_singleton.mp isMoment
        exact notStored result isStored

/-! ### Runs -/

variable (isThreads : start.threads = threads)

include isThreads in
theorem partway_memos (thread : ι) :
    Memo.Partway memoized.essence
      (memoized.memos thread (Pool.trace respond start schedule)) := by
  have reaches := Pool.reaches_own respond start schedule thread
  rw [isThreads] at reaches
  rcases reaches.completes memoized.environment with ⟨later, value, behaves, _⟩
  have course := memoized.course thread _ value behaves
  rw [List.filterMap_append] at course
  exact course.partway

include isThreads in
/-- Of two threads that missed the key, the one that missed it first never executed. -/
theorem not_ran_of_earlier_miss {before after : List (ι × Event Op Answer)} {later : ι}
    {event : Event Op Answer}
    (fresh : memoized.lookup start.shared key = none)
    (serial : Guarded (memoized.Serial key) [] (Pool.trace respond start schedule))
    (isTrace : Pool.trace respond start schedule = before ++ (later, event) :: after)
    (isMiss : memoized.reads later event = some (.miss key))
    (earlier : .miss key ∈ memoized.memos thread before) (yield : Yield) :
    .ran key yield ∉ memoized.memos thread (Pool.trace respond start schedule) := by
  have notInFlight := guarded_iff_split.mp serial before _ after isTrace isMiss thread
  have notStored := (guarded_iff_split.mp (coherent_trace fresh) before _ after isTrace).2 isMiss
  simp only [InFlight, not_and, not_forall, not_not] at notInFlight
  rcases notInFlight earlier with ⟨value, returned⟩
  rw [← isThreads] at returned
  have isOwn := Pool.own_of_returned memoized.environment isTrace returned
  rw [isThreads] at returned
  rw [memos, isOwn]
  rcases (memoized.course thread _ value returned).of_miss earlier with ⟨result, stored⟩ | notRan
  · exact absurd stored (notStored thread result)
  · exact notRan yield

include isThreads in
/-- All executions of the key are made by one thread. -/
theorem executor_unique {left right : ι} {leftYield rightYield : Yield}
    (fresh : memoized.lookup start.shared key = none)
    (serial : Guarded (memoized.Serial key) [] (Pool.trace respond start schedule))
    (isLeft : .ran key leftYield ∈ memoized.memos left (Pool.trace respond start schedule))
    (isRight : .ran key rightYield ∈ memoized.memos right (Pool.trace respond start schedule)) :
    left = right := by
  by_contra differ
  have leftMiss := (partway_memos isThreads left).miss_of_ran isLeft
  have rightMiss := (partway_memos isThreads right).miss_of_ran isRight
  rcases mem_memos.mp leftMiss with ⟨leftEvent, leftMoment, leftReads⟩
  rcases mem_memos.mp rightMiss with ⟨rightEvent, rightMoment, rightReads⟩
  rcases List.mem_iff_append.mp leftMoment with ⟨before, after, isTrace⟩
  have elsewhere : (right, rightEvent) ∈ before ∨ (right, rightEvent) ∈ after := by
    rw [isTrace] at rightMoment
    simp only [List.mem_append, List.mem_cons, Prod.mk.injEq] at rightMoment
    rcases rightMoment with isBefore | ⟨isLeft, _⟩ | isAfter
    · exact .inl isBefore
    · exact absurd isLeft.symm differ
    · exact .inr isAfter
  rcases elsewhere with isBefore | isAfter
  · exact not_ran_of_earlier_miss isThreads fresh serial isTrace leftReads
      (mem_memos.mpr ⟨_, isBefore, rightReads⟩) rightYield isRight
  · rcases List.mem_iff_append.mp isAfter with ⟨between, final, rfl⟩
    have isTrace : Pool.trace respond start schedule =
        (before ++ (left, leftEvent) :: between) ++ (right, rightEvent) :: final := by
      simpa using isTrace
    exact not_ran_of_earlier_miss isThreads fresh serial isTrace rightReads
      (mem_memos.mpr ⟨_, by simp, leftReads⟩) leftYield isLeft

include isThreads in
theorem executions_length_le (fresh : memoized.lookup start.shared key = none)
    (serial : Guarded (memoized.Serial key) [] (Pool.trace respond start schedule)) :
    (memoized.executions key (Pool.trace respond start schedule)).length ≤ 1 := by
  cases areExecutions : memoized.executions key (Pool.trace respond start schedule) with
  | nil => simp
  | cons first rest =>
      have isFirst : (first.1, first.2) ∈
          memoized.executions key (Pool.trace respond start schedule) := by simp [areExecutions]
      have single : ∀ other yield, (other, yield) ∈
          memoized.executions key (Pool.trace respond start schedule) → other = first.1 :=
        fun other yield isThere =>
          executor_unique isThreads fresh serial (mem_executions.mp isThere)
            (mem_executions.mp isFirst)
      have partway : Memo.Partway memoized.essence
          (memoized.memos first.1 (Pool.trace respond start schedule)) :=
        partway_memos isThreads first.1
      have atMost : ((memoized.memos first.1 (Pool.trace respond start schedule)).filterMap
          (Memo.ranWith key)).length ≤ 1 := partway.ranWith_length
      rw [← executions_eq_of_thread single, List.length_map] at atMost
      rwa [areExecutions] at atMost

/-- Whoever was answered, some thread executed and stored the result. -/
theorem stored_of_answered {result : Result} (fresh : memoized.lookup start.shared key = none)
    (answered : memoized.Answered key (Pool.trace respond start schedule) thread result) :
    ∃ executor, .stored key result ∈
      memoized.memos executor (Pool.trace respond start schedule) := by
  rcases answered with isHit | isStored
  · rcases mem_memos.mp isHit with ⟨event, isMoment, isRead⟩
    rcases List.mem_iff_append.mp isMoment with ⟨before, after, isTrace⟩
    rcases (guarded_iff_split.mp (coherent_trace fresh) before _ after isTrace).1 result isRead with
      ⟨executor, stored⟩
    refine ⟨executor, ?_⟩
    rw [isTrace, memos_append]
    exact List.mem_append_left _ stored
  · exact ⟨thread, isStored⟩

include isThreads in
theorem stored_of_returned {result : Result} (fresh : memoized.lookup start.shared key = none)
    (returned : memoized.Returned key (Pool.run respond start schedule) thread result) :
    ∃ executor, .stored key result ∈
      memoized.memos executor (Pool.trace respond start schedule) := by
  rcases returned with ⟨value, isDone, isReturned⟩
  have reaches := Pool.reaches_own respond start schedule thread
  rw [isThreads, isDone] at reaches
  exact stored_of_answered fresh
    (memoized.answered thread _ value key result reaches.behaves isReturned)

include isThreads in
/-- If no thread misses the key while another that missed it has not returned, the key is
executed at most once and every success returns the one result. -/
theorem atMostOnce (fresh : memoized.lookup start.shared key = none)
    (serial : memoized.SerialRun key start schedule) : memoized.OnceRun key start schedule := by
  have executed := executions_length_le isThreads fresh serial
  refine ⟨executed, ?_, ?_⟩
  · intro thread result returned
    rcases stored_of_returned isThreads fresh returned with ⟨executor, stored⟩
    have isRan := mem_executions.mpr ((partway_memos isThreads executor).ran_of_stored stored)
    have isPositive := List.length_pos_of_mem isRan
    rcases List.length_eq_one_iff.mp (Nat.le_antisymm executed isPositive) with
      ⟨single, areExecutions⟩
    rw [areExecutions] at isRan
    exact ⟨executor, by rw [areExecutions, List.mem_singleton.mp isRan]⟩
  · intro left right first second leftReturned rightReturned
    rcases stored_of_returned isThreads fresh leftReturned with ⟨firstExecutor, firstStored⟩
    rcases stored_of_returned isThreads fresh rightReturned with ⟨secondExecutor, secondStored⟩
    have isOne := executor_unique isThreads fresh serial
      ((partway_memos isThreads firstExecutor).ran_of_stored firstStored)
      ((partway_memos isThreads secondExecutor).ran_of_stored secondStored)
    subst isOne
    exact (partway_memos isThreads firstExecutor).stored_unique firstStored secondStored

/-- A trace with a single miss is serial. -/
theorem serial_of_single_miss (single : (moments.filter memoized.isMiss).length ≤ 1) :
    Guarded (memoized.Serial key) [] moments := by
  refine guarded_iff_split.mpr ?_
  rintro before ⟨mover, event⟩ after rfl isMissed thread ⟨isInFlight, _⟩
  rcases mem_memos.mp isInFlight with ⟨earlier, isMoment, wasMissed⟩
  have isLater : memoized.isMiss (mover, event) = true := by
    simp only [isMiss, isMissed]
  have isEarlier : memoized.isMiss (thread, earlier) = true := by
    simp only [isMiss, wasMissed]
  have isThere : (thread, earlier) ∈ before.filter memoized.isMiss := by
    simpa [isEarlier] using isMoment
  have isPositive := List.length_pos_of_mem isThere
  simp only [List.filter_append, List.filter_cons, isLater, if_true, List.length_append,
    List.length_cons] at single
  omega

end Memoized

end Aa.Library
