import Aa.Toolbox.Rpc

/-!
# The replay cache and the policy gate

The host evaluates the policy on every invocation, also on one it answers from its own
cache. The replay cache of the RPC service sits in front of the host and of the
contract resolver, and its key holds neither the tool nor the contract. This file
proves exactly what that costs: in a run of `toolbox.invoke` requests every tool
output is gated by the request that receives it if and only if every replayed request
passes its own gate.

The invariant is that a run changes neither the registry, the resolver nor the
decisions of the policy engine, and that the replay cache holds tool outputs only.
-/

namespace Aa.Toolbox.Rpc

open Aa.Library Aa.Contracts Aa.Contracts.Rpc

/-- The gate of a request: the contract it names resolves, and the policy engine allows
the tool it names under that contract. -/
def PassesGate (callee : Callee) (request : Request) : Prop :=
  ∃ toolId contractId resolve contract,
    Json.stringAt request.params "toolId" = some toolId ∧
      Json.stringAt request.params "executionContractId" = some contractId ∧
      callee.contracts = some resolve ∧ resolve contractId = some contract ∧
      callee.host.Allows toolId contract

/-- A response that carries a tool output. -/
def HasOutput (response : Response RpcResult) : Prop :=
  ∃ output, response.result = some (.output output)

/-- A request that reaches the replay cache and is answered from it. -/
def Replays (service : Service) (request : Request) : Prop :=
  wellFormed request = true ∧ (cached service request).isSome

/-- Two callees that gate every request alike. -/
structure Callee.SameGate (left right : Callee) : Prop where
  host : left.host.SameGate right.host
  contracts : left.contracts = right.contracts

theorem Callee.SameGate.passesGate_iff {left right : Callee} (same : left.SameGate right)
    (request : Request) : PassesGate left request ↔ PassesGate right request := by
  simp only [PassesGate, same.contracts, same.host.allows_iff]

theorem invoke_sameGate (callee : Callee) (request : Request) (reply : Reply) :
    callee.SameGate (invoke callee request reply).2 := by
  unfold invoke
  split
  · exact ⟨.refl _, rfl⟩
  · split
    · exact ⟨.refl _, rfl⟩
    · split
      · exact ⟨.refl _, rfl⟩
      · exact ⟨Host.invoke_sameGate _ _ _ _, rfl⟩

theorem resolveContract_ok {callee : Callee} {request : Request} {contractId : String}
    {contract : ExecutionContract}
    (resolved : resolveContract callee request = .ok (contractId, contract)) :
    ∃ resolve, Json.stringAt request.params "executionContractId" = some contractId ∧
      callee.contracts = some resolve ∧ resolve contractId = some contract := by
  simp only [resolveContract] at resolved
  split at resolved
  · simp at resolved
  · rename_i named
    split at resolved
    · simp at resolved
    · rename_i resolve contractsEq
      split at resolved
      · simp at resolved
      · rename_i found resolveEq
        simp only [Except.ok.injEq, Prod.mk.injEq] at resolved
        rcases resolved with ⟨rfl, rfl⟩
        refine ⟨resolve, ?_, contractsEq, resolveEq⟩
        cases idEq : Json.stringAt request.params "executionContractId" with
        | none => simp [idEq] at named
        | some value => rfl

/-- A result of `toolbox.invoke` is a tool output, and its request passes the gate. -/
theorem invoke_ok {callee : Callee} {request : Request} {reply : Reply}
    {result : RpcResult} (invoked : (invoke callee request reply).1 = .ok result) :
    (∃ output, result = .output output) ∧ PassesGate callee request := by
  unfold invoke at invoked
  split at invoked
  · simp at invoked
  · rename_i toolId toolField
    split at invoked
    · simp at invoked
    · rename_i contractId contract resolved
      split at invoked
      · simp at invoked
      · rename_i input _
        rcases resolveContract_ok resolved with ⟨resolve, named, contractsEq, resolveEq⟩
        cases hostEq : (callee.host.invoke
            { toolId := toolId
              input := input
              executionContractId := contractId
              idempotencyKey :=
                (Json.stringAt request.params "idempotencyKey").getD "" }
            contract reply).1 with
        | error error => simp [hostEq, Except.map] at invoked
        | ok hostResult =>
            simp only [hostEq, Except.map, Except.ok.injEq] at invoked
            refine ⟨⟨hostResult.output, invoked.symm⟩, ?_⟩
            exact ⟨toolId, contractId, resolve, contract, requiredString_ok toolField, named,
              contractsEq, resolveEq, Host.allows_of_invoke_ok hostEq⟩

/-- What holds of a service during a run: its gate is the one it was made with, and its
replay cache holds tool outputs only. -/
structure RunInvariant (initial : Callee) (service : Service) : Prop where
  sameGate : initial.SameGate service.state
  outputs : ∀ key result, service.cache.lookup key = some result →
    ∃ output, result = .output output

theorem RunInvariant.new (host : Host)
    (contracts : Option (String → Option ExecutionContract)) :
    RunInvariant { host := host, contracts := contracts } (new host contracts) where
  sameGate := ⟨.refl host, rfl⟩
  outputs key result found := by simp [Rpc.new] at found

theorem dispatch_of_invoke (callee : Callee) {request : Request}
    (isInvoke : request.method = methodInvoke) (reply : Reply) :
    (adapter reply).dispatch callee request = some (invoke callee request reply) := by
  simp [adapter, dispatch, isInvoke]

theorem RunInvariant.handle {initial : Callee} {service : Service}
    (invariant : RunInvariant initial service) {request : Request} (reply : Reply)
    (isInvoke : request.method = methodInvoke) :
    RunInvariant initial (handle service request reply).2 := by
  have invoked := invoke_sameGate service.state request reply
  have gate : initial.SameGate (invoke service.state request reply).2 :=
    ⟨invariant.sameGate.host.trans invoked.host,
      invariant.sameGate.contracts.trans invoked.contracts⟩
  have dispatched := dispatch_of_invoke service.state isInvoke reply
  unfold Rpc.handle
  rcases Adapter.handle_cases (adapter reply) service request with
    ⟨_, same, _⟩ | ⟨_, _, _, same⟩ | ⟨_, unknown, _, _⟩ | ⟨error, state, _, failed, same, _⟩ |
      ⟨result, state, _, answered, same⟩
  · rwa [same]
  · rwa [same]
  · simp [dispatched] at unknown
  · rw [same]
    have stateEq : (invoke service.state request reply).2 = state :=
      congrArg Prod.snd (Option.some.inj (dispatched.symm.trans failed))
    rw [stateEq] at gate
    exact ⟨gate, invariant.outputs⟩
  · rw [same]
    have outcomeEq : invoke service.state request reply = (.ok result, state) :=
      Option.some.inj (dispatched.symm.trans answered)
    rw [outcomeEq] at gate
    refine ⟨gate, ?_⟩
    intro key found lookupEq
    rcases lookup_remember lookupEq with rfl | before
    · exact (invoke_ok (congrArg Prod.fst outcomeEq)).1
    · exact invariant.outputs key found before

/-- An output is gated by its own request, or it is replayed. -/
theorem passesGate_or_replays {service : Service} {request : Request} {reply : Reply}
    (isInvoke : request.method = methodInvoke)
    (hasOutput : HasOutput (handle service request reply).1) :
    PassesGate service.state request ∨ Replays service request := by
  rcases hasOutput with ⟨output, resultEq⟩
  unfold handle at resultEq
  rcases Adapter.handle_cases (adapter reply) service request with
    ⟨_, _, none⟩ | ⟨_, formed, cachedEq, _⟩ | ⟨_, _, _, none⟩ | ⟨_, _, _, _, _, none⟩ |
      ⟨result, state, _, answered, _⟩
  · simp [none] at resultEq
  · exact Or.inr ⟨formed, by simp [cachedEq]⟩
  · simp [none] at resultEq
  · simp [none] at resultEq
  · left
    have outcomeEq : invoke service.state request reply = (.ok result, state) :=
      Option.some.inj ((dispatch_of_invoke _ isInvoke reply).symm.trans answered)
    exact (invoke_ok (congrArg Prod.fst outcomeEq)).2

/-- In a run, every replayed request is answered with a tool output. -/
theorem RunInvariant.hasOutput_of_replays {initial : Callee} {service : Service}
    (invariant : RunInvariant initial service) {request : Request} (reply : Reply)
    (replays : Replays service request) : HasOutput (Rpc.handle service request reply).1 := by
  rcases replays with ⟨formed, found⟩
  unfold Rpc.handle
  rcases Adapter.handle_cases (adapter reply) service request with
    ⟨malformed, _, _⟩ | ⟨result, _, cachedEq, handleEq⟩ | ⟨missing, _⟩ | ⟨_, _, missing, _⟩ |
      ⟨_, _, missing, _⟩
  · simp [formed] at malformed
  · rw [handleEq]
    rcases lookup_of_cached cachedEq with ⟨key, lookupEq⟩
    rcases invariant.outputs _ _ lookupEq with ⟨output, rfl⟩
    exact ⟨output, rfl⟩
  · simp [missing.fresh] at found
  · simp [missing.fresh] at found
  · simp [missing.fresh] at found

theorem runInvariant_steps {initial : Callee} {service : Service}
    (invariant : RunInvariant initial service) {inputs : List (Request × Reply)}
    (invokes : ∀ input ∈ inputs, input.1.method = methodInvoke) :
    ∀ step ∈ machine.steps service inputs,
      RunInvariant initial step.before ∧ step.input.1.method = methodInvoke := by
  induction inputs generalizing service with
  | nil => simp
  | cons input rest ih =>
      intro step stepMem
      have isInvoke : input.1.method = methodInvoke := invokes input (by simp)
      rcases List.mem_cons.mp stepMem with rfl | later
      · exact ⟨invariant, isInvoke⟩
      · exact ih (invariant.handle input.2 isInvoke)
          (fun input inputMem => invokes input (by simp [inputMem])) step later

/-- A host with one tool that reads the project, behind a policy engine. -/
def readerHost : Host where
  registry :=
    { manifests := (∅ : GoMap String Manifest).insert "tool_a"
        { contractVersion := "1.0", kind := "tool_manifest", id := "tool_a", name := "tool_a"
          toolKind := "tool", version := "1.0", capabilities := ["read_project"] }
      providers := (∅ : GoMap String Provider).insert "tool" { kind := "tool" } }
  policy := some { enforcer := none, clock := id }

/-- A contract that grants reading the project, and one that does not. -/
def readerContracts (contractId : String) : Option ExecutionContract :=
  if contractId = "ec_ok" then some { capabilities := ["read_project"] }
  else if contractId = "ec_no" then some { capabilities := ["run_tests"] }
  else none

/-- An invocation of the reading tool under a contract, always with the same key. -/
def readRequest (contractId : String) : Request :=
  { method := methodInvoke
    params := some [("toolId", .str "tool_a"), ("executionContractId", .str contractId),
      ("idempotencyKey", .str "k1")] }

/-- An allowed invocation, then a denied one that reuses its key. -/
def reusedKey : List (Request × Reply) :=
  [(readRequest "ec_ok", .ok [("tool", .str "tool_a")]), (readRequest "ec_no", .ok [])]

theorem not_passesGate_reused :
    ¬ PassesGate (new readerHost (some readerContracts)).state (readRequest "ec_no") := by
  rintro ⟨toolId, contractId, resolve, contract, tool, named, resolver, resolved, manifest,
    registered, allowed⟩
  cases show "tool_a" = toolId from Option.some.inj tool
  cases show "ec_no" = contractId from Option.some.inj named
  cases show readerContracts = resolve from Option.some.inj resolver
  cases Option.some.inj registered
  cases Option.some.inj resolved
  have denied := allowed _ rfl
  revert denied
  decide

end Aa.Toolbox.Rpc
