import Aa.Library.Machine
import Aa.Library.Program
import Aa.Toolbox.ReplayGate

/-!
# Which call a replay answers

The host answers an invocation from its cache when the key derived from the tool, the
contract and the caller's own key is there. The derivation trims and joins its parts
and uses the contract only where the caller gives no key, so a replay stands for an
earlier call of the same identity exactly as far as the derived key separates the
calls that reach the cache.
-/

namespace Aa.Toolbox

open Aa.Library

/-- The arguments of an invocation of the host. -/
structure HostCall where
  invocation : Invocation
  contract : ExecutionContract

namespace HostCall

def contractId (call : HostCall) : String :=
  if call.contract.id = "" then call.invocation.executionContractId else call.contract.id

def cacheKey (call : HostCall) : String :=
  invocationKey call.invocation.toolId call.contractId call.invocation.idempotencyKey

/-- What stands for the call in the cache, the tool aside: its own key, or the contract
when it has none. -/
def token (call : HostCall) : String :=
  if call.invocation.idempotencyKey = "" then call.contractId
  else call.invocation.idempotencyKey

/-- The trimmed tools and tokens of the calls, joined by a colon, are one text. -/
def Collide (left right : HostCall) : Prop :=
  Go.trimSpace left.invocation.toolId ++ ":" ++ Go.trimSpace left.token =
    Go.trimSpace right.invocation.toolId ++ ":" ++ Go.trimSpace right.token

theorem collide_of_token {left right : HostCall}
    (tools : left.invocation.toolId = right.invocation.toolId) (tokens : left.token = right.token) :
    left.Collide right := by
  rw [Collide, tools, tokens]

theorem cacheKey_eq_iff {left right : HostCall} :
    left.cacheKey = right.cacheKey ↔ left.Collide right := by
  have keyEq (call : HostCall) : call.cacheKey = Go.trimSpace "invoke" ++ ":" ++
      (Go.trimSpace call.invocation.toolId ++ ":" ++ Go.trimSpace call.token) := rfl
  rw [keyEq, keyEq, String.append_right_inj]
  rfl

/-- The calls invoke one tool with one token. -/
structure SameToken (left right : HostCall) : Prop where
  toolId : left.invocation.toolId = right.invocation.toolId
  token : Go.trimSpace left.token = Go.trimSpace right.token

/-- The call's tool id holds no colon and no white space. -/
def PlainTool (call : HostCall) : Prop :=
  ∀ c ∈ call.invocation.toolId.toList, c ≠ ':' ∧ Go.isSpace c = false

theorem Collide.sameToken {left right : HostCall} (leftPlain : left.PlainTool)
    (rightPlain : right.PlainTool) (collide : left.Collide right) : left.SameToken right := by
  have leftTrim := Go.trimSpace_of_solid fun c isThere => (leftPlain c isThere).2
  have rightTrim := Go.trimSpace_of_solid fun c isThere => (rightPlain c isThere).2
  rw [Collide, leftTrim, rightTrim] at collide
  have leftColon : ':' ∉ left.invocation.toolId.toList :=
    fun isThere => (leftPlain _ isThere).1 rfl
  have rightColon : ':' ∉ right.invocation.toolId.toList :=
    fun isThere => (rightPlain _ isThere).1 rfl
  rcases Go.append_separator_inj leftColon rightColon collide with ⟨tools, tokens⟩
  exact ⟨tools, tokens⟩

/-- The result of the call when it runs the tool, which returns `output`. -/
def fresh (call : HostCall) (output : Json.Object) : Result :=
  { toolId := call.invocation.toolId, output := output }

/-- The calls are of one identity: one tool, one contract, one key and, without a key,
one input. -/
structure Same (left right : HostCall) : Prop where
  toolId : left.invocation.toolId = right.invocation.toolId
  contractId : left.contractId = right.contractId
  idempotencyKey : left.invocation.idempotencyKey = right.invocation.idempotencyKey
  input : left.invocation.idempotencyKey = "" → left.invocation.input = right.invocation.input

end HostCall

namespace Host

/-- The call gets as far as the cache: its tool is registered and allowed, and has a
provider. -/
def Reaches (host : Host) (call : HostCall) : Prop :=
  call.invocation.toolId ≠ "" ∧
    ∃ manifest, host.registry.get call.invocation.toolId = some manifest ∧
      (∀ engine, host.policy = some engine →
        (engine.decide manifest call.contract).allowed = true) ∧
      (host.registry.providerForManifest manifest).isSome = true

theorem SameGate.reaches {left right : Host} (same : left.SameGate right) {call : HostCall}
    (reaches : left.Reaches call) : right.Reaches call := by
  rcases reaches with ⟨named, manifest, registered, allowed, provided⟩
  refine ⟨named, manifest, same.registry ▸ registered, ?_, same.registry ▸ provided⟩
  intro engine isEngine
  have samePolicy := same.policy
  rw [isEngine, Option.map_some] at samePolicy
  rcases Option.map_eq_some_iff.mp samePolicy with ⟨leftEngine, isLeft, sameDecide⟩
  rw [← sameDecide]
  exact allowed leftEngine isLeft

theorem SameGate.symm {left right : Host} (same : left.SameGate right) : right.SameGate left :=
  ⟨same.registry.symm, same.policy.symm⟩

/-- The machine of invocations; a provider that is invoked returns the given reply. -/
def machine : Machine Host (HostCall × Reply) (Except Error Result) where
  step host input :=
    let invoked := host.invoke input.1.invocation input.1.contract input.2
    (invoked.2, invoked.1)

/-- An invocation fails before the cache, or is executed against it. -/
theorem invoke_cases (host : Host) (call : HostCall) (reply : Reply) :
    (∃ error, (host.invoke call.invocation call.contract reply).1 = .error error ∧
        (host.invoke call.invocation call.contract reply).2.cache = host.cache) ∨
      host.Reaches call ∧ ∃ gated : Host, gated.cache = host.cache ∧
        host.invoke call.invocation call.contract reply =
          gated.execute call.invocation call.contract reply := by
  have gatedCache (manifest : Manifest) :
      (host.enforce manifest call.contract).2.cache = host.cache := by
    unfold enforce
    split <;> rfl
  have gatedRegistry (manifest : Manifest) :
      (host.enforce manifest call.contract).2.registry = host.registry := by
    unfold enforce
    split <;> rfl
  simp only [invoke]
  split
  · exact .inl ⟨_, rfl, rfl⟩
  · rename_i named
    split
    · exact .inl ⟨_, rfl, rfl⟩
    · rename_i manifest registered
      have sameCache := gatedCache manifest
      have sameRegistry := gatedRegistry manifest
      split
      · rename_i error gated enforceEq
        rw [enforceEq] at sameCache
        exact .inl ⟨error, rfl, sameCache⟩
      · rename_i gated enforceEq
        rw [enforceEq] at sameCache sameRegistry
        split
        · exact .inl ⟨_, rfl, sameCache⟩
        · rename_i provider provided
          rw [sameRegistry] at provided
          refine .inr ⟨⟨named, manifest, registered, ?_, by rw [provided]; rfl⟩, gated, sameCache,
            rfl⟩
          exact allowed_of_enforce (by rw [enforceEq])

theorem invoke_of_reaches {host : Host} {call : HostCall} (reaches : host.Reaches call)
    (reply : Reply) :
    ∃ gated : Host, gated.cache = host.cache ∧
      host.invoke call.invocation call.contract reply =
        gated.execute call.invocation call.contract reply := by
  rcases reaches with ⟨named, manifest, registered, allowed, provided⟩
  rcases Option.isSome_iff_exists.mp provided with ⟨provider, providerEq⟩
  cases policyEq : host.policy with
  | none =>
      refine ⟨host, rfl, ?_⟩
      simp only [invoke, if_neg named, registered, enforce, policyEq, providerEq]
  | some engine =>
      have passes : denial (engine.decide manifest call.contract) = none :=
        (denial_eq_none_iff _).mpr (allowed engine policyEq)
      refine ⟨{ host with policy := some (engine.evaluate manifest call.contract).2 }, rfl, ?_⟩
      simp only [invoke, if_neg named, registered, enforce, policyEq, Engine.evaluate, passes,
        providerEq]

theorem execute_hit {gated : Host} {call : HostCall} {reply : Reply} {cached : Result}
    (found : gated.cache.lookup call.cacheKey = some cached) :
    gated.execute call.invocation call.contract reply =
      (.ok { cached with replayed := true }, gated) := by
  simp only [execute]
  rw [show gated.cache.lookup (invocationKey call.invocation.toolId
    (if call.contract.id = "" then call.invocation.executionContractId else call.contract.id)
    call.invocation.idempotencyKey) = some cached from found]

theorem execute_fresh {gated : Host} {call : HostCall} {output : Json.Object}
    (missing : gated.cache.lookup call.cacheKey = none) :
    gated.execute call.invocation call.contract (.ok output) =
      (.ok (call.fresh output),
        { gated with cache := gated.cache.insert call.cacheKey (call.fresh output) }) := by
  simp only [execute]
  rw [show gated.cache.lookup (invocationKey call.invocation.toolId
    (if call.contract.id = "" then call.invocation.executionContractId else call.contract.id)
    call.invocation.idempotencyKey) = none from missing]
  rfl

theorem execute_failed {gated : Host} {call : HostCall} {error : Error}
    (missing : gated.cache.lookup call.cacheKey = none) :
    gated.execute call.invocation call.contract (.error error) = (.error error, gated) := by
  simp only [execute]
  rw [show gated.cache.lookup (invocationKey call.invocation.toolId
    (if call.contract.id = "" then call.invocation.executionContractId else call.contract.id)
    call.invocation.idempotencyKey) = none from missing]

/-- A host that has answered no call. -/
def fresh (registry : Registry) (policy : Option Engine) : Host :=
  { registry := registry, policy := policy }

/-! ### Replays in a run -/

/-- A step of the host, with the call and what its tool would return. -/
abbrev Moment := Machine.Step Host (HostCall × Reply) (Except Error Result)

/-- A replayed result is the result of an earlier successful call related to this one. -/
def Answers (related : HostCall → HostCall → Prop) (past : List Moment) (step : Moment) : Prop :=
  ∀ result, step.output = .ok result → result.replayed = true →
    ∃ earlier ∈ past, ∃ output, earlier.output = .ok (earlier.input.1.fresh output) ∧
      related earlier.input.1 step.input.1 ∧
      result = { earlier.input.1.fresh output with replayed := true }

/-- Every replay of the run answers with the result of an earlier related call. -/
def Replays (related : HostCall → HostCall → Prop) (host : Host)
    (inputs : List (HostCall × Reply)) : Prop :=
  Guarded (Answers related) [] (machine.steps host inputs)

/-- What the cache holds during a run: each entry is the fresh result of a call that
reached the cache with the entry's key. -/
structure CacheRecords (initial : Host) (past : List Moment) (host : Host) : Prop where
  sameGate : initial.SameGate host
  recorded : ∀ key cached, host.cache.lookup key = some cached →
    ∃ earlier ∈ past, initial.Reaches earlier.input.1 ∧ earlier.input.1.cacheKey = key ∧
      ∃ output, cached = earlier.input.1.fresh output ∧ earlier.output = .ok cached

theorem CacheRecords.later {initial host host' : Host} {past : List Moment}
    (records : CacheRecords initial past host) (sameGate : host.SameGate host')
    (sameCache : host'.cache = host.cache) (step : Moment) :
    CacheRecords initial (past ++ [step]) host' where
  sameGate := records.sameGate.trans sameGate
  recorded key cached found := by
    rw [sameCache] at found
    rcases records.recorded key cached found with ⟨earlier, isPast, facts⟩
    exact ⟨earlier, List.mem_append_left _ isPast, facts⟩

/-- One invocation of a run: a replay answers with the result of an earlier call that
reached the same entry of the cache. -/
theorem CacheRecords.invoke {initial host : Host} {past : List Moment}
    (records : CacheRecords initial past host) (call : HostCall) (reply : Reply) :
    Answers (fun earlier later => initial.Reaches earlier ∧ initial.Reaches later ∧
        earlier.Collide later) past (machine.stepAt host (call, reply)) ∧
      CacheRecords initial (past ++ [machine.stepAt host (call, reply)])
        (machine.step host (call, reply)).1 := by
  have sameGate := host.invoke_sameGate call.invocation call.contract reply
  rcases invoke_cases host call reply with
    ⟨error, failed, sameCache⟩ | ⟨reaches, gated, sameCache, invokeEq⟩
  · refine ⟨?_, records.later sameGate sameCache _⟩
    intro result isOk
    cases failed.symm.trans isOk
  · have reachesFirst : initial.Reaches call := records.sameGate.symm.reaches reaches
    cases found : gated.cache.lookup call.cacheKey with
    | some cached =>
        rw [execute_hit found] at invokeEq
        have cacheEq : (host.invoke call.invocation call.contract reply).2.cache = host.cache := by
          rw [invokeEq, sameCache]
        refine ⟨?_, records.later sameGate cacheEq _⟩
        intro result isOk isReplay
        cases (congrArg Prod.fst invokeEq).symm.trans isOk
        rw [sameCache] at found
        rcases records.recorded _ _ found with
          ⟨earlier, isEarlier, reached, sameKey, output, rfl, firstOk⟩
        exact ⟨earlier, isEarlier, output, firstOk,
          ⟨reached, reachesFirst, HostCall.cacheKey_eq_iff.mp sameKey⟩, rfl⟩
    | none =>
        cases reply with
        | error error =>
            rw [execute_failed found] at invokeEq
            have cacheEq :
                (host.invoke call.invocation call.contract (.error error)).2.cache = host.cache := by
              rw [invokeEq, sameCache]
            refine ⟨?_, records.later sameGate cacheEq _⟩
            intro result isOk
            cases (congrArg Prod.fst invokeEq).symm.trans isOk
        | ok output =>
            rw [execute_fresh found] at invokeEq
            refine ⟨?_, records.sameGate.trans sameGate, ?_⟩
            · intro result isOk isReplay
              cases (congrArg Prod.fst invokeEq).symm.trans isOk
              cases isReplay
            · intro key cached isCached
              rw [show (machine.step host (call, .ok output)).1.cache =
                  gated.cache.insert call.cacheKey (call.fresh output) from
                congrArg (fun invoked => invoked.2.cache) invokeEq] at isCached
              by_cases isKey : key = call.cacheKey
              · subst isKey
                rw [AList.lookup_insert] at isCached
                cases isCached
                exact ⟨_, List.mem_append_right _ (List.mem_singleton.mpr rfl), reachesFirst, rfl,
                  output, rfl, congrArg Prod.fst invokeEq⟩
              · rw [AList.lookup_insert_ne isKey, sameCache] at isCached
                rcases records.recorded key cached isCached with ⟨earlier, isEarlier, facts⟩
                exact ⟨earlier, List.mem_append_left _ isEarlier, facts⟩

theorem CacheRecords.fresh (registry : Registry) (policy : Option Engine) :
    CacheRecords (fresh registry policy) [] (fresh registry policy) where
  sameGate := .refl _
  recorded key cached found := by cases found

/-- Every replay of a run on calls in which a collision implies a relation is the replay of
an earlier related call. -/
theorem replays_of_collisions {registry : Registry} {policy : Option Engine}
    {calls : Set HostCall} {related : HostCall → HostCall → Prop}
    (collisions : ∀ first ∈ calls, ∀ second ∈ calls, (fresh registry policy).Reaches first →
      (fresh registry policy).Reaches second → first.Collide second → related first second)
    {inputs : List (HostCall × Reply)} (areCalls : ∀ input ∈ inputs, input.1 ∈ calls) :
    Replays related (fresh registry policy) inputs := by
  refine Machine.guarded_steps (CacheRecords (fresh registry policy))
    (fun input => input.1 ∈ calls) ?_ (.fresh registry policy) areCalls
  intro past host input isPast isCall records
  rcases records.invoke input.1 input.2 with ⟨answers, kept⟩
  refine ⟨?_, kept⟩
  intro result isOk isReplay
  rcases answers result isOk isReplay with
    ⟨earlier, isEarlier, output, firstOk, ⟨reached, reaches, collide⟩, answer⟩
  exact ⟨earlier, isEarlier, output, firstOk,
    collisions _ (isPast earlier isEarlier) _ isCall reached reaches collide, answer⟩

theorem invoke_fresh {registry : Registry} {policy : Option Engine} {call : HostCall}
    (reaches : (fresh registry policy).Reaches call) (output : Json.Object) :
    ((fresh registry policy).invoke call.invocation call.contract
      (.ok output)).2.cache.lookup call.cacheKey = some (call.fresh output) := by
  rcases invoke_of_reaches reaches (.ok output) with ⟨gated, sameCache, invokeEq⟩
  have missing : gated.cache.lookup call.cacheKey = none := by
    rw [sameCache]
    rfl
  rw [invokeEq, execute_fresh missing]
  exact AList.lookup_insert _

/-- Of two calls in a row that collide, the second is a replay of the first. -/
theorem related_of_replays {registry : Registry} {policy : Option Engine}
    {related : HostCall → HostCall → Prop} {first second : HostCall}
    (firstReaches : (fresh registry policy).Reaches first)
    (secondReaches : (fresh registry policy).Reaches second)
    (collide : first.Collide second) {output : Json.Object} {reply : Reply}
    (replays : Replays related (fresh registry policy) [(first, .ok output), (second, reply)]) :
    related first second := by
  have sameGate := (fresh registry policy).invoke_sameGate first.invocation first.contract
    (.ok output)
  have stored := invoke_fresh firstReaches output
  rcases invoke_of_reaches (sameGate.reaches secondReaches) reply with ⟨gated, sameCache, invokeEq⟩
  rw [HostCall.cacheKey_eq_iff.mpr collide, ← sameCache] at stored
  rw [execute_hit stored] at invokeEq
  rcases replays.2.1 _ (congrArg Prod.fst invokeEq) rfl with ⟨earlier, isEarlier, _, _, isRelated, _⟩
  cases List.mem_singleton.mp isEarlier
  exact isRelated

/-- The replays of every run over a set of calls are related to the calls they repeat
exactly when all calls of the set that collide are. -/
theorem replays_iff_collisions (registry : Registry) (policy : Option Engine)
    (calls : Set HostCall) (related : HostCall → HostCall → Prop) :
    (∀ inputs : List (HostCall × Reply), (∀ input ∈ inputs, input.1 ∈ calls) →
        Replays related (fresh registry policy) inputs) ↔
      ∀ first ∈ calls, ∀ second ∈ calls, (fresh registry policy).Reaches first →
        (fresh registry policy).Reaches second → first.Collide second → related first second := by
  constructor
  · intro replays first isFirst second isSecond firstReaches secondReaches collide
    refine related_of_replays firstReaches secondReaches collide
      (replays [(first, .ok []), (second, .ok [])] ?_)
    intro input isInput
    rcases List.mem_pair.mp isInput with rfl | rfl
    · exact isFirst
    · exact isSecond
  · intro collisions inputs areCalls
    exact replays_of_collisions collisions areCalls

/-- In every run on tools whose ids hold no colon and no white space, a call is answered
from the cache only with the result of an earlier successful call of the same tool with the
same token. -/
theorem replays_share_token (registry : Registry) (policy : Option Engine)
    (inputs : List (HostCall × Reply)) (plain : ∀ input ∈ inputs, input.1.PlainTool) :
    Replays HostCall.SameToken (fresh registry policy) inputs := by
  have areCalls : ∀ input ∈ inputs, input.1 ∈ {call : HostCall | call.PlainTool} := plain
  refine replays_of_collisions ?_ areCalls
  intro first firstPlain second secondPlain _ _ collide
  exact collide.sameToken firstPlain secondPlain

/-- A call of the reading tool. -/
def readCall (contractId idempotencyKey : String) (path : String) : HostCall where
  invocation :=
    { toolId := "tool_a"
      input := [("path", .str path)]
      executionContractId := contractId
      idempotencyKey := idempotencyKey }
  contract := { id := contractId, capabilities := ["read_project"] }

theorem readerHost_reaches (contractId idempotencyKey path : String) :
    (fresh Rpc.readerHost.registry Rpc.readerHost.policy).Reaches
      (readCall contractId idempotencyKey path) := by
  have named : "tool_a" ≠ "" := by decide
  refine ⟨named, _, rfl, ?_, rfl⟩
  intro engine isEngine
  cases Option.some.inj isEngine
  rfl

/-- Two contracts under one key, and two inputs without a key. -/
def repeatedReads : List (HostCall × Reply) × List (HostCall × Reply) :=
  ([(readCall "ec_1" "k1" "a.go", .ok [("read", .str "a.go")]), (readCall "ec_2" "k1" "a.go", .ok [])],
    [(readCall "ec_1" "" "a.go", .ok [("read", .str "a.go")]), (readCall "ec_1" "" "b.go", .ok [])])

theorem repeatedReads_share_token :
    Replays HostCall.SameToken (fresh Rpc.readerHost.registry Rpc.readerHost.policy)
      repeatedReads.1 := by
  refine replays_share_token _ _ repeatedReads.1 ?_
  have plain : ∀ c ∈ "tool_a".toList, c ≠ ':' ∧ Go.isSpace c = false := by
    have spelled : "tool_a".toList = ['t', 'o', 'o', 'l', '_', 'a'] := rfl
    intro c isThere
    simp only [spelled, List.mem_cons, List.not_mem_nil, or_false] at isThere
    rcases isThere with rfl | rfl | rfl | rfl | rfl | rfl
    all_goals exact ⟨by decide, by decide⟩
  intro input isInput
  rcases List.mem_pair.mp isInput with rfl | rfl
  · exact plain
  · exact plain

/-- The cache forgets the contract of a call with a key, and the input of one without. -/
theorem repeatedReads_forget_identity :
    ¬ Replays HostCall.Same (fresh Rpc.readerHost.registry Rpc.readerHost.policy)
        repeatedReads.1 ∧
      ¬ Replays HostCall.Same (fresh Rpc.readerHost.registry Rpc.readerHost.policy)
        repeatedReads.2 := by
  constructor
  · intro replays
    have collide : (readCall "ec_1" "k1" "a.go").Collide (readCall "ec_2" "k1" "a.go") :=
      HostCall.collide_of_token rfl (by simp [HostCall.token, readCall])
    have same := related_of_replays (readerHost_reaches _ _ _) (readerHost_reaches _ _ _)
      collide replays
    have contracts : "ec_1" = "ec_2" := same.contractId
    revert contracts
    decide
  · intro replays
    have collide : (readCall "ec_1" "" "a.go").Collide (readCall "ec_1" "" "b.go") :=
      HostCall.collide_of_token rfl rfl
    have same := related_of_replays (readerHost_reaches _ _ _) (readerHost_reaches _ _ _)
      collide replays
    have inputs := same.input rfl
    simp [readCall] at inputs

end Host

end Aa.Toolbox
