import Aa.Contracts.Rpc
import Aa.Library.Memo

/-!
# Concurrent requests to an adapter

An adapter holds the lock of its replay cache for the lookup and again for the store, and
dispatches the request in between. Other requests may come between any two of these steps.
A request that nobody interrupts is `Adapter.handle`.
-/

namespace Aa.Contracts.Rpc

open Aa.Library

variable {World State Error Result : Type}

/-- The atomic operations of a request. -/
inductive Op (Result : Type) where
  | lookup (key : String)
  | dispatch (request : Request)
  | store (key : String) (result : Result)

abbrev Answer (Error Result : Type) : Op Result → Type
  | .lookup _ => Option Result
  | .dispatch _ => Option (Except Error Result)
  | .store .. => Unit

/-- Some answer to each operation. -/
def anyAnswer : (op : Op Result) → Answer Error Result op
  | .lookup _ => none
  | .dispatch _ => none
  | .store .. => ()

/-- How an operation is answered, when the methods of the adapter meet the given world. -/
def respond (dispatch : World → State → Request → Option (Except Error Result × State)) :
    Pool.Responder ℕ (Service State Result) World (Op Result) (Answer Error Result)
  | _, _, service, .lookup key => some (service.cache.lookup key, service)
  | _, world, service, .dispatch request =>
      match dispatch world service.state request with
      | none => some (none, service)
      | some (outcome, state) => some (some outcome, { service with state := state })
  | _, _, service, .store key result =>
      some ((), { service with cache := service.cache.insert key result })

/-- A request on its way, with the operations of the service as its own. -/
abbrev Handling (Error Result : Type) :=
  Coroutine (Op Result) (Answer Error Result) Unit RpcError

namespace Handling

variable {errorFrom : Error → RpcError}

/-- Performs an operation that returns a value. -/
def call (op : Op Result) : Handling Error Result (Answer Error Result op) :=
  Coroutine.perform op .ok

theorem does_call {before after : Unit} {events : List (Event (Op Result) (Answer Error Result))}
    {op : Op Result} {outcome : Except RpcError (Answer Error Result op)} :
    (call op).Does before events outcome after ↔
      ∃ answer, events = [⟨op, answer⟩] ∧ outcome = .ok answer := by
  simp [call, Coroutine.does_perform]

/-- The cached result of a request with a key. -/
def replay (request : Request) : Handling Error Result (Option Result) :=
  match idempotencyKey request with
  | none => return none
  | some key => call (.lookup (cacheKey request.method key))

/-- The result of the request's method. -/
def dispatch (errorFrom : Error → RpcError) (request : Request) : Handling Error Result Result := do
  match ← call (.dispatch request) with
  | none => Coroutine.raise ⟨codeMethodNotFound, "unknown method " ++ Go.quote request.method⟩
  | some (.error error) => Coroutine.raise (errorFrom error)
  | some (.ok result) => return result

/-- Remembers the result of a request with a key. -/
def remember (request : Request) (result : Result) : Handling Error Result Unit :=
  match idempotencyKey request with
  | none => return ()
  | some key => call (.store (cacheKey request.method key) result)

/-- Validates the envelope and dispatches one request. -/
def handle (errorFrom : Error → RpcError) (request : Request) : Handling Error Result Result := do
  if request.jsonrpc ≠ "" ∧ request.jsonrpc ≠ "2.0" then
    Coroutine.raise ⟨codeInvalidRequest, "jsonrpc must be \"2.0\""⟩
  else if !compatible request.aa then
    Coroutine.raise ⟨codeIncompatible, "unsupported RPC major"⟩
  else
    match ← replay request with
    | some cached => return cached
    | none =>
        let result ← dispatch errorFrom request
        remember request result
        return result

end Handling

/-- What a request does. -/
def Request.program (errorFrom : Error → RpcError) (request : Request) :
    Program (Op Result) (Answer Error Result) (Except RpcError Result × Unit) :=
  Handling.handle errorFrom request ()

/-- The response to a request that ended so. -/
def respondWith (request : Request) : Except RpcError Result → Response Result
  | .ok result => { id := request.id, result := some result }
  | .error error => errResponse request.id error

/-- Requests to a service, none of which has begun. -/
def Service.start (service : Service State Result) (errorFrom : Error → RpcError)
    (requests : ℕ → Request) :
    Pool ℕ (Service State Result) (Op Result) (Answer Error Result)
      (Except RpcError Result × Unit) :=
  { shared := service, threads := fun thread => (requests thread).program errorFrom }

/-! ## A request that nobody interrupts -/

section Solo

variable (methods : World → State → Request → Option (Except Error Result × State))
  (errorFrom : Error → RpcError) (thread : ℕ) (world : World) (service : Service State Result)
  (request : Request)

theorem solo_replay :
    (Handling.replay request ()).solo (respond methods thread world) service =
      some ((.ok (cached service request), ()), service) := by
  unfold Handling.replay cached
  cases idempotencyKey request with
  | none => rfl
  | some key => rfl

theorem solo_remember (result : Result) :
    (Handling.remember request result ()).solo (respond methods thread world) service =
      some ((.ok (), ()), { service with cache := remember service.cache request result }) := by
  unfold Handling.remember remember
  cases idempotencyKey request with
  | none => rfl
  | some key => rfl

/-- A request that nobody interrupts does what the adapter's `handle` does. -/
theorem solo_handle :
    ∃ outcome after,
      (request.program errorFrom).solo (respond methods thread world) service =
        some ((outcome, ()), after) ∧
      ({ dispatch := methods world, errorFrom := errorFrom } : Adapter State Error Result).handle
        service request = (respondWith request outcome, after) := by
  simp only [Request.program, Handling.handle, Adapter.handle]
  by_cases version : request.jsonrpc ≠ "" ∧ request.jsonrpc ≠ "2.0"
  · rw [if_pos version, if_pos version]
    exact ⟨_, _, rfl, rfl⟩
  · rw [if_neg version, if_neg version]
    cases compat : compatible request.aa with
    | false => exact ⟨_, _, rfl, rfl⟩
    | true =>
        simp only [Bool.not_true, Bool.false_eq_true, if_false, Coroutine.solo_bind, solo_replay,
          Option.bind_some]
        cases cached service request with
        | some result => exact ⟨_, _, rfl, rfl⟩
        | none =>
            simp only [Coroutine.solo_bind, Handling.dispatch, Handling.call,
              Coroutine.solo_perform, respond]
            cases methods world service.state request with
            | none => exact ⟨_, _, rfl, rfl⟩
            | some dispatched =>
                rcases dispatched with ⟨error | result, state⟩
                · exact ⟨_, _, rfl, rfl⟩
                · simp only [Option.map_some, Option.bind_some, Coroutine.solo_pure,
                    solo_remember]
                  exact ⟨_, _, rfl, rfl⟩

end Solo

/-! ## The lookups, executions and stores of a request -/

namespace Request

variable (request : Request)

/-- The key of the request in the replay cache. -/
def key : Option String := (idempotencyKey request).map (cacheKey request.method)

/-- What an event of the request means to the replay cache. -/
def reads : Event (Op Result) (Answer Error Result) → Option (Memo String Result Result)
  | ⟨.lookup key, some cached⟩ => some (.hit key cached)
  | ⟨.lookup key, none⟩ => some (.miss key)
  | ⟨.dispatch _, some (.ok result)⟩ => request.key.map fun key => .ran key result
  | ⟨.store key result, _⟩ => some (.stored key result)
  | _ => none

/-- The result the request returned, and its key. -/
def returned : Except RpcError Result × Unit → Option (String × Result)
  | (.ok result, _) => request.key.map fun key => (key, result)
  | _ => none

/-- How a request with a key can go. -/
inductive Goes (key : String) :
    List (Event (Op Result) (Answer Error Result)) → Except RpcError Result → Prop
  | rejected (error : RpcError) : Goes key [] (.error error)
  | replayed (cached : Result) : Goes key [⟨.lookup key, some cached⟩] (.ok cached)
  | failed (dispatched : Option (Except Error Result)) (error : RpcError)
      (noResult : ∀ result, dispatched ≠ some (.ok result)) :
      Goes key [⟨.lookup key, none⟩, ⟨.dispatch request, dispatched⟩] (.error error)
  | executed (result : Result) :
      Goes key [⟨.lookup key, none⟩, ⟨.dispatch request, some (.ok result)⟩,
        ⟨.store key result, ()⟩] (.ok result)

variable {request} {errorFrom : Error → RpcError}
  {events : List (Event (Op Result) (Answer Error Result))}

/-- A dispatch is one operation. -/
theorem dispatched_of_does {before after : Unit} {outcome : Except RpcError Result}
    (does : (Handling.dispatch errorFrom request).Does before events outcome after) :
    (∃ result, events = [⟨.dispatch request, some (.ok result)⟩] ∧ outcome = .ok result) ∨
      ∃ dispatched error, (∀ result, dispatched ≠ some (.ok result)) ∧
        events = [⟨.dispatch request, dispatched⟩] ∧ outcome = .error error := by
  rcases Coroutine.does_bind.mp does with
    ⟨dispatched, _, _, _, calls, ends, rfl⟩ | ⟨_, calls, _⟩
  · rcases Handling.does_call.mp calls with ⟨_, rfl, isDispatched⟩
    cases isDispatched
    rcases dispatched with - | error | result
    · rcases Coroutine.does_raise.mp ends with ⟨rfl, rfl, _⟩
      exact .inr ⟨none, _, by simp, rfl, rfl⟩
    · rcases Coroutine.does_raise.mp ends with ⟨rfl, rfl, _⟩
      exact .inr ⟨some (.error error), _, by simp, rfl, rfl⟩
    · rcases Coroutine.does_pure.mp ends with ⟨rfl, rfl, _⟩
      exact .inl ⟨result, rfl, rfl⟩
  · rcases Handling.does_call.mp calls with ⟨_, _, isError⟩
    cases isError

/-- A request goes nowhere, or passes the checks of its envelope. -/
theorem does_handle {outcome : Except RpcError Result}
    (does : (Handling.handle errorFrom request).Does () events outcome ()) :
    (∃ error, events = [] ∧ outcome = .error error) ∨
      (do
        match ← Handling.replay request with
        | some cached => return cached
        | none =>
            let result ← Handling.dispatch errorFrom request
            Handling.remember request result
            return result : Handling Error Result Result).Does () events outcome () := by
  unfold Handling.handle at does
  split at does
  · rcases Coroutine.does_raise.mp does with ⟨rfl, rfl, _⟩
    exact .inl ⟨_, rfl, rfl⟩
  · split at does
    · rcases Coroutine.does_raise.mp does with ⟨rfl, rfl, _⟩
      exact .inl ⟨_, rfl, rfl⟩
    · exact .inr does

theorem goes_of_does {key : String} {outcome : Except RpcError Result}
    (isKey : request.key = some key)
    (does : (Handling.handle errorFrom request).Does () events outcome ()) :
    request.Goes key events outcome := by
  rcases Option.map_eq_some_iff.mp isKey with ⟨own, isOwn, rfl⟩
  rcases does_handle does with ⟨error, rfl, rfl⟩ | passes
  · exact .rejected error
  have isReplay : (Handling.replay request : Handling Error Result (Option Result)) =
      Handling.call (.lookup (cacheKey request.method own)) := by
    rw [Handling.replay, isOwn]
  have isRemember (result : Result) : (Handling.remember request result : Handling Error Result Unit) =
      Handling.call (.store (cacheKey request.method own) result) := by
    rw [Handling.remember, isOwn]
  simp only [isReplay, isRemember] at passes
  rcases Coroutine.does_bind.mp passes with
    ⟨found, _, _, _, looksUp, goes, rfl⟩ | ⟨_, looksUp, _⟩
  · rcases Handling.does_call.mp looksUp with ⟨_, rfl, isFound⟩
    cases isFound
    cases found with
    | some cached =>
        rcases Coroutine.does_pure.mp goes with ⟨rfl, rfl, _⟩
        exact .replayed cached
    | none =>
        rcases Coroutine.does_bind.mp goes with
          ⟨result, _, _, _, dispatches, stores, rfl⟩ | ⟨raised, dispatches, rfl⟩
        · rcases dispatched_of_does dispatches with ⟨_, rfl, isResult⟩ | ⟨_, _, _, _, isError⟩
          · cases isResult
            rcases Coroutine.does_bind.mp stores with
              ⟨_, _, _, _, stored, returns, rfl⟩ | ⟨_, stored, _⟩
            · rcases Handling.does_call.mp stored with ⟨_, rfl, _⟩
              rcases Coroutine.does_pure.mp returns with ⟨rfl, rfl, _⟩
              exact .executed result
            · rcases Handling.does_call.mp stored with ⟨_, _, isError⟩
              cases isError
          · cases isError
        · rcases dispatched_of_does dispatches with ⟨_, _, isOk⟩ | ⟨dispatched, _, noResult, rfl, _⟩
          · cases isOk
          · exact .failed dispatched raised noResult
  · rcases Handling.does_call.mp looksUp with ⟨_, _, isError⟩
    cases isError

/-- A request without a key touches no cache. -/
theorem reads_of_no_key {outcome : Except RpcError Result} (noKey : request.key = none)
    (does : (Handling.handle errorFrom request).Does () events outcome ()) :
    events.filterMap request.reads = [] := by
  have isNone : idempotencyKey request = none := Option.map_eq_none_iff.mp noKey
  rcases does_handle does with ⟨error, rfl, rfl⟩ | passes
  · rfl
  have isReplay : (Handling.replay request : Handling Error Result (Option Result)) =
      pure none := by
    rw [Handling.replay, isNone]
  have isRemember (result : Result) : (Handling.remember request result : Handling Error Result Unit) =
      pure () := by
    rw [Handling.remember, isNone]
  simp only [isReplay, isRemember] at passes
  rcases Coroutine.does_bind.mp passes with ⟨found, _, _, _, skips, goes, rfl⟩ | ⟨_, skips, _⟩
  · rcases Coroutine.does_pure.mp skips with ⟨rfl, isFound, _⟩
    cases isFound
    rcases Coroutine.does_bind.mp goes with
      ⟨result, _, _, _, dispatches, returns, rfl⟩ | ⟨raised, dispatches, rfl⟩
    · rcases Coroutine.does_bind.mp returns with ⟨_, _, _, _, skips, ends, rfl⟩ | ⟨_, skips, _⟩
      · rcases Coroutine.does_pure.mp skips with ⟨rfl, _, _⟩
        rcases Coroutine.does_pure.mp ends with ⟨rfl, _, _⟩
        rcases dispatched_of_does dispatches with ⟨_, rfl, _⟩ | ⟨_, _, _, _, isError⟩
        · simp [reads, noKey]
        · cases isError
      · rcases Coroutine.does_pure.mp skips with ⟨_, isError, _⟩
        cases isError
    · rcases dispatched_of_does dispatches with ⟨_, _, isOk⟩ | ⟨dispatched, _, noResult, rfl, _⟩
      · cases isOk
      · rcases dispatched with - | error | result
        · rfl
        · rfl
        · exact absurd rfl (noResult result)
  · rcases Coroutine.does_pure.mp skips with ⟨_, isError, _⟩
    cases isError

theorem course {value : Except RpcError Result × Unit}
    (behaves : (request.program errorFrom).Behaves events value) :
    Memo.Course (fun result : Result => result) (events.filterMap request.reads) := by
  have does : (Handling.handle errorFrom request).Does () events value.1 () := behaves
  generalize value.1 = outcome at does
  cases isKey : request.key with
  | none =>
      rw [reads_of_no_key isKey does]
      exact .unread
  | some key =>
      cases goes_of_does isKey does with
      | rejected => exact .unread
      | replayed => exact .answered _ _
      | failed dispatched error noResult =>
          rcases dispatched with - | error | result
          · exact .failed key
          · exact .failed key
          · exact absurd rfl (noResult result)
      | executed result =>
          simp only [List.filterMap_cons, reads, isKey, Option.map_some, List.filterMap_nil]
          exact .executed key result

theorem answered {value : Except RpcError Result × Unit} {key : String} {result : Result}
    (behaves : (request.program errorFrom).Behaves events value)
    (isReturned : request.returned value = some (key, result)) :
    .hit key result ∈ events.filterMap request.reads ∨
      .stored key result ∈ events.filterMap request.reads := by
  have does : (Handling.handle errorFrom request).Does () events value.1 () := behaves
  rcases value with ⟨error | found, after⟩
  · cases isReturned
  rcases Option.map_eq_some_iff.mp isReturned with ⟨own, isKey, isPair⟩
  cases isPair
  generalize isOutcome : (Except.ok result : Except RpcError Result) = outcome at does
  cases goes_of_does isKey does with
  | rejected => cases isOutcome
  | replayed cached =>
      cases isOutcome
      exact .inl (by simp [reads])
  | failed => cases isOutcome
  | executed found =>
      cases isOutcome
      exact .inr (by simp [reads, isKey])

end Request

/-! ## The replay cache -/

/-- The requests to an adapter share its replay cache. -/
def results (methods : World → State → Request → Option (Except Error Result × State))
    (errorFrom : Error → RpcError) (requests : ℕ → Request) :
    Memoized (respond methods) (fun thread => (requests thread).program errorFrom) String Result
      Result where
  reads thread := (requests thread).reads
  lookup service key := service.cache.lookup key
  essence result := result
  environment := anyAnswer
  returned thread := (requests thread).returned
  course _ _ _ := Request.course
  answered _ _ _ _ _ := Request.answered
  looks := by
    intro thread world service op answer after key answers
    cases op with
    | lookup own =>
        cases answers
        cases isFound : service.cache.lookup own with
        | none =>
            refine ⟨fun result isHit => (by simp [Request.reads] at isHit), ?_⟩
            intro isMiss
            simp only [Request.reads, Option.some.injEq, Memo.miss.injEq] at isMiss
            rw [← isMiss, isFound]
        | some cached =>
            refine ⟨?_, fun isMiss => (by simp [Request.reads] at isMiss)⟩
            intro result isHit
            simp only [Request.reads, Option.some.injEq, Memo.hit.injEq] at isHit
            rw [← isHit.1, isFound, isHit.2]
    | dispatch request =>
        rcases answer with - | error | result
        · exact ⟨fun _ isHit => (by cases isHit), fun isMiss => (by cases isMiss)⟩
        · exact ⟨fun _ isHit => (by cases isHit), fun isMiss => (by cases isMiss)⟩
        · refine ⟨fun _ isHit => ?_, fun isMiss => ?_⟩
          · simp [Request.reads] at isHit
          · simp [Request.reads] at isMiss
    | store own result => exact ⟨fun _ isHit => (by cases isHit), fun isMiss => (by cases isMiss)⟩
  stores := by
    intro thread world service op answer after key answers
    cases op with
    | store own result =>
        cases answers
        by_cases isKey : key = own
        · subst isKey
          exact .inl ⟨result, rfl, by simp⟩
        · refine .inr ⟨?_, by simp [AList.lookup_insert_ne isKey]⟩
          intro other isStored
          simp only [Request.reads, Option.some.injEq, Memo.stored.injEq] at isStored
          exact isKey isStored.1.symm
    | lookup own =>
        refine .inr ⟨?_, by cases answers; rfl⟩
        intro other isStored
        cases answer <;> cases isStored
    | dispatch request =>
        refine .inr ⟨?_, ?_⟩
        · intro other isStored
          rcases answer with - | error | result
          · cases isStored
          · cases isStored
          · simp [Request.reads] at isStored
        · simp only [respond] at answers
          split at answers
          · cases answers
            rfl
          · cases answers
            rfl

end Aa.Contracts.Rpc
