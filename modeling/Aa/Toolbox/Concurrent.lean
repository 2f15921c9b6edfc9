import Aa.Library.Memo
import Aa.Toolbox.ReplayIdentity

/-!
# Concurrent invocations

An invocation of the host takes its locks one after the other: the registry, the policy
engine, the cache for the lookup, and the cache again for the store. Other invocations may
come between any two of them. An invocation that nobody interrupts is `Host.invoke`.
-/

namespace Aa.Toolbox

open Aa.Library

namespace Host

/-- The atomic operations of an invocation. -/
inductive Op where
  | get (toolId : String)
  | enforce (manifest : Manifest) (contract : ExecutionContract)
  | provider (manifest : Manifest)
  | lookup (key : String)
  | invoke (manifest : Manifest) (input : Json.Object)
  | store (key : String) (result : Result)

abbrev Answer : Op → Type
  | .get _ => Option Manifest
  | .enforce .. => Option Error
  | .provider _ => Option Provider
  | .lookup _ => Option Result
  | .invoke .. => Reply
  | .store .. => Unit

/-- Some answer to each operation. -/
def anyAnswer : (op : Op) → Answer op
  | .get _ => none
  | .enforce .. => none
  | .provider _ => none
  | .lookup _ => none
  | .invoke .. => .ok []
  | .store .. => ()

/-- How an operation is answered; a provider that runs returns `reply`. -/
def respond : Pool.Responder ℕ Host Reply Op Answer
  | _, _, host, .get toolId => some (host.registry.get toolId, host)
  | _, _, host, .enforce manifest contract => some (host.enforce manifest contract)
  | _, _, host, .provider manifest => some (host.registry.providerForManifest manifest, host)
  | _, _, host, .lookup key => some (host.cache.lookup key, host)
  | _, reply, host, .invoke _ _ => some (reply, host)
  | _, _, host, .store key result =>
      some ((), { host with cache := host.cache.insert key result })

end Host

/-- An invocation, with the operations of the host as its own. -/
abbrev Invoking := Coroutine Host.Op Host.Answer Unit Error

namespace Invoking

/-- Performs an operation that returns a value. -/
def call (op : Host.Op) : Invoking (Host.Answer op) := Coroutine.perform op .ok

theorem does_call {before after : Unit} {events : List (Event Host.Op Host.Answer)} {op : Host.Op}
    {outcome : Except Error (Host.Answer op)} :
    (call op).Does before events outcome after ↔
      ∃ answer, events = [⟨op, answer⟩] ∧ outcome = .ok answer := by
  simp [call, Coroutine.does_perform]

/-- The provider of a tool a contract allows. -/
def gate (call : HostCall) : Invoking Manifest := do
  if call.invocation.toolId = "" then
    Coroutine.raise (.wrap .invalid "toolId is required")
  else
    match ← Invoking.call (.get call.invocation.toolId) with
    | none => Coroutine.raise (.wrap .notFound ("tool " ++ Go.quote call.invocation.toolId))
    | some manifest =>
        match ← Invoking.call (.enforce manifest call.contract) with
        | some error => Coroutine.raise error
        | none =>
            match ← Invoking.call (.provider manifest) with
            | none => Coroutine.raise (.wrap .noProvider (Go.quote manifest.toolKind))
            | some _ => return manifest

/-- Answers an invocation from the cache, or runs the tool. -/
def execute (call : HostCall) (manifest : Manifest) : Invoking Result := do
  match ← Invoking.call (.lookup call.cacheKey) with
  | some cached => return { cached with replayed := true }
  | none =>
      match ← Invoking.call (.invoke manifest call.invocation.input) with
      | .error error => Coroutine.raise error
      | .ok output =>
          let result : Result := { toolId := call.invocation.toolId, output := output }
          Invoking.call (.store call.cacheKey result)
          return result

/-- Runs a tool under an execution contract. -/
def invoke (call : HostCall) : Invoking Result := do
  let manifest ← gate call
  execute call manifest

end Invoking

def HostCall.program (call : HostCall) :
    Program Host.Op Host.Answer (Except Error Result × Unit) :=
  Invoking.invoke call ()

/-- Calls on a host, none of which has begun. -/
def Host.start (host : Host) (calls : ℕ → HostCall) :
    Pool ℕ Host Host.Op Host.Answer (Except Error Result × Unit) :=
  { shared := host, threads := fun thread => (calls thread).program }

/-! ## An invocation that nobody interrupts -/

theorem HostCall.solo_execute (call : HostCall) (thread : ℕ) (host : Host) (reply : Reply)
    (manifest : Manifest) :
    (Invoking.execute call manifest ()).solo (Host.respond thread reply) host =
      some (((host.execute call.invocation call.contract reply).1, ()),
        (host.execute call.invocation call.contract reply).2) := by
  simp only [Invoking.execute, Invoking.call, Coroutine.solo_bind, Coroutine.solo_perform,
    Host.respond, Option.map_some, Option.bind_some]
  cases isCached : host.cache.lookup call.cacheKey with
  | some cached =>
      have isFound := isCached
      rw [HostCall.cacheKey, HostCall.contractId] at isFound
      simp [Host.execute, isFound]
  | none =>
      have isMissing := isCached
      rw [HostCall.cacheKey, HostCall.contractId] at isMissing
      cases reply with
      | error error => simp [Coroutine.solo_bind, Host.respond, Host.execute, isMissing]
      | ok output =>
          simp [Coroutine.solo_bind, Host.respond, Host.execute, isMissing, HostCall.cacheKey,
            HostCall.contractId]

theorem HostCall.solo_program (call : HostCall) (thread : ℕ) (host : Host) (reply : Reply) :
    call.program.solo (Host.respond thread reply) host =
      some (((host.invoke call.invocation call.contract reply).1, ()),
        (host.invoke call.invocation call.contract reply).2) := by
  simp only [HostCall.program, Invoking.invoke, Invoking.gate, Host.invoke]
  by_cases noTool : call.invocation.toolId = ""
  · simp [noTool, Coroutine.solo_bind]
  · simp only [noTool, if_false, Coroutine.solo_bind, Invoking.call, Coroutine.solo_perform,
      Host.respond, Option.map_some, Option.bind_some]
    cases isManifest : host.registry.get call.invocation.toolId with
    | none => simp
    | some manifest =>
        cases isEnforced : host.enforce manifest call.contract with
        | mk denied gated =>
            cases denied with
            | some error => simp [Coroutine.solo_bind, Host.respond, isEnforced]
            | none =>
                cases isProvider : gated.registry.providerForManifest manifest with
                | none => simp [Coroutine.solo_bind, Host.respond, isEnforced, isProvider]
                | some provider =>
                    simp only [Coroutine.solo_bind, Coroutine.solo_perform, Host.respond,
                      isEnforced, isProvider, Option.map_some, Option.bind_some,
                      Coroutine.solo_pure]
                    exact call.solo_execute thread gated reply manifest

/-! ## The lookups, executions and stores of an invocation -/

/-- The result as its execution returned it. -/
def Result.executed (result : Result) : Result := { result with replayed := false }

namespace HostCall

/-- What an event of the call means to the cache of the host. -/
def reads (call : HostCall) :
    Event Host.Op Host.Answer → Option (Memo String Result Result)
  | ⟨.lookup key, some cached⟩ => some (.hit key cached.executed)
  | ⟨.lookup key, none⟩ => some (.miss key)
  | ⟨.invoke _ _, .ok output⟩ => some (.ran call.cacheKey (call.fresh output))
  | ⟨.store key result, _⟩ => some (.stored key result.executed)
  | _ => none

/-- The result a call returned, and its key. -/
def returned (call : HostCall) : Except Error Result × Unit → Option (String × Result)
  | (.ok result, _) => some (call.cacheKey, result.executed)
  | _ => none

/-- The event is none of the lookups, executions and stores. -/
def Unread (call : HostCall) (event : Event Host.Op Host.Answer) : Prop := call.reads event = none

theorem unread_gate (call : HostCall) : Coroutine.Only call.Unread (Invoking.gate call) := by
  unfold Invoking.gate
  split
  · exact .raise _
  · refine .bind (.perform fun _ => rfl) fun found => ?_
    split
    · exact .raise _
    · refine .bind (.perform fun _ => rfl) fun denied => ?_
      split
      · exact .raise _
      · refine .bind (.perform fun _ => rfl) fun provider => ?_
        split
        · exact .raise _
        · exact .pure _

/-- How an invocation can go. -/
inductive Goes (call : HostCall) : List (Event Host.Op Host.Answer) → Except Error Result → Prop
  | stopped {events : List (Event Host.Op Host.Answer)} {error : Error}
      (unread : ∀ event ∈ events, call.Unread event) : Goes call events (.error error)
  | hit {events : List (Event Host.Op Host.Answer)} {cached : Result}
      (unread : ∀ event ∈ events, call.Unread event) :
      Goes call (events ++ [⟨.lookup call.cacheKey, some cached⟩])
        (.ok { cached with replayed := true })
  | failed {events : List (Event Host.Op Host.Answer)} {manifest : Manifest} {error : Error}
      (unread : ∀ event ∈ events, call.Unread event) :
      Goes call (events ++ [⟨.lookup call.cacheKey, none⟩,
        ⟨.invoke manifest call.invocation.input, .error error⟩]) (.error error)
  | executed {events : List (Event Host.Op Host.Answer)} {manifest : Manifest}
      {output : Json.Object} (unread : ∀ event ∈ events, call.Unread event) :
      Goes call (events ++ [⟨.lookup call.cacheKey, none⟩,
        ⟨.invoke manifest call.invocation.input, .ok output⟩,
        ⟨.store call.cacheKey (call.fresh output), ()⟩]) (.ok (call.fresh output))

theorem goes_of_behaves {call : HostCall} {events : List (Event Host.Op Host.Answer)}
    {value : Except Error Result × Unit} (behaves : call.program.Behaves events value) :
    call.Goes events value.1 := by
  have does : (Invoking.invoke call).Does () events value.1 value.2 := behaves
  rcases value with ⟨outcome, after⟩
  rcases Coroutine.does_bind.mp does with
    ⟨manifest, _, gating, later, gates, looks, rfl⟩ | ⟨raised, gates, rfl⟩
  · have unread := call.unread_gate _ _ _ _ gates
    rcases Coroutine.does_bind.mp looks with
      ⟨found, _, looking, _, looksUp, goes, rfl⟩ | ⟨_, looksUp, _⟩
    · rcases Invoking.does_call.mp looksUp with ⟨_, rfl, isFound⟩
      cases isFound
      cases found with
      | some cached =>
          rcases Coroutine.does_pure.mp goes with ⟨rfl, rfl, _⟩
          exact .hit unread
      | none =>
          rcases Coroutine.does_bind.mp goes with
            ⟨reply, _, _, _, invokes, ends, rfl⟩ | ⟨_, invokes, _⟩
          · rcases Invoking.does_call.mp invokes with ⟨_, rfl, isReply⟩
            cases isReply
            cases reply with
            | error error =>
                rcases Coroutine.does_raise.mp ends with ⟨rfl, rfl, _⟩
                exact .failed unread
            | ok output =>
                rcases Coroutine.does_bind.mp ends with
                  ⟨_, _, _, _, stores, returns, rfl⟩ | ⟨_, stores, _⟩
                · rcases Invoking.does_call.mp stores with ⟨_, rfl, _⟩
                  rcases Coroutine.does_pure.mp returns with ⟨rfl, rfl, _⟩
                  exact .executed unread
                · rcases Invoking.does_call.mp stores with ⟨_, _, isError⟩
                  cases isError
          · rcases Invoking.does_call.mp invokes with ⟨_, _, isError⟩
            cases isError
    · rcases Invoking.does_call.mp looksUp with ⟨_, _, isError⟩
      cases isError
  · exact .stopped (call.unread_gate _ _ _ _ gates)

theorem filterMap_reads_of_unread (call : HostCall) {events : List (Event Host.Op Host.Answer)}
    (unread : ∀ event ∈ events, call.Unread event) : events.filterMap call.reads = [] :=
  List.filterMap_eq_nil_iff.mpr unread

theorem course (call : HostCall) {events : List (Event Host.Op Host.Answer)}
    {value : Except Error Result × Unit} (behaves : call.program.Behaves events value) :
    Memo.Course id (events.filterMap call.reads) := by
  have goes := goes_of_behaves behaves
  generalize value.1 = outcome at goes
  cases goes with
  | stopped unread =>
      rw [call.filterMap_reads_of_unread unread]
      exact .unread
  | hit unread =>
      rw [List.filterMap_append, call.filterMap_reads_of_unread unread]
      exact .answered _ _
  | failed unread =>
      rw [List.filterMap_append, call.filterMap_reads_of_unread unread]
      exact .failed _
  | executed unread =>
      rw [List.filterMap_append, call.filterMap_reads_of_unread unread]
      exact .executed _ _

theorem answered (call : HostCall) {events : List (Event Host.Op Host.Answer)}
    {value : Except Error Result × Unit} {key : String} {result : Result}
    (behaves : call.program.Behaves events value)
    (isReturned : call.returned value = some (key, result)) :
    .hit key result ∈ events.filterMap call.reads ∨
      .stored key result ∈ events.filterMap call.reads := by
  have goes := goes_of_behaves behaves
  rcases value with ⟨error | found, after⟩
  · cases isReturned
  cases isReturned
  cases goes with
  | hit unread =>
      rw [List.filterMap_append, call.filterMap_reads_of_unread unread]
      exact .inl (by simp [reads, Result.executed])
  | executed unread =>
      rw [List.filterMap_append, call.filterMap_reads_of_unread unread]
      exact .inr (by simp [reads, Result.executed])

end HostCall

/-! ## The cache of the host -/

theorem Host.cache_enforce (host : Host) (manifest : Manifest) (contract : ExecutionContract) :
    (host.enforce manifest contract).2.cache = host.cache := by
  unfold Host.enforce
  split <;> rfl

/-- The calls of a host share its cache. -/
def Host.results (calls : ℕ → HostCall) :
    Memoized Host.respond (fun thread => (calls thread).program) String Result Result where
  reads thread := (calls thread).reads
  lookup host key := (host.cache.lookup key).map Result.executed
  essence := id
  environment := Host.anyAnswer
  returned thread := (calls thread).returned
  course thread _ _ := (calls thread).course
  answered thread _ _ _ _ := (calls thread).answered
  looks := by
    intro thread reply host op answer after key answers
    cases op with
    | lookup own =>
        cases answers
        cases isFound : host.cache.lookup own with
        | none =>
            refine ⟨fun result isHit => (by simp [HostCall.reads] at isHit), ?_⟩
            intro isMiss
            simp only [HostCall.reads, Option.some.injEq, Memo.miss.injEq] at isMiss
            rw [← isMiss, isFound]
            rfl
        | some cached =>
            refine ⟨?_, fun isMiss => (by simp [HostCall.reads] at isMiss)⟩
            intro result isHit
            simp only [HostCall.reads, Option.some.injEq, Memo.hit.injEq] at isHit
            rw [← isHit.1, isFound, ← isHit.2]
            rfl
    | invoke manifest input =>
        cases answers
        cases reply <;> exact ⟨fun _ isHit => (by cases isHit), fun isMiss => (by cases isMiss)⟩
    | _ => exact ⟨fun _ isHit => (by cases isHit), fun isMiss => (by cases isMiss)⟩
  stores := by
    intro thread reply host op answer after key answers
    cases op with
    | store own result =>
        cases answers
        by_cases isKey : key = own
        · subst isKey
          exact .inl ⟨result.executed, rfl, by simp⟩
        · refine .inr ⟨?_, by simp [AList.lookup_insert_ne isKey]⟩
          intro other isStored
          simp only [HostCall.reads, Option.some.injEq, Memo.stored.injEq] at isStored
          exact isKey isStored.1.symm
    | lookup own =>
        refine .inr ⟨?_, by cases answers; rfl⟩
        intro other isStored
        cases answer <;> cases isStored
    | invoke manifest input =>
        refine .inr ⟨?_, by cases answers; rfl⟩
        intro other isStored
        cases answer <;> cases isStored
    | enforce manifest contract =>
        refine .inr ⟨fun _ isStored => (by cases isStored), ?_⟩
        have isPair : host.enforce manifest contract = (answer, after) := Option.some.inj answers
        have isKept := host.cache_enforce manifest contract
        rw [isPair] at isKept
        rw [isKept]
    | _ => exact .inr ⟨fun _ isStored => (by cases isStored), by cases answers; rfl⟩

end Aa.Toolbox
