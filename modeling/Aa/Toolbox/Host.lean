import Aa.Toolbox.Policy
import Aa.Toolbox.Registry

/-!
# The tool invocation host

The host looks up a manifest, evaluates the caller's execution contract through the
policy engine, selects the provider for the tool's kind, and runs the tool. Repeating
an invocation key returns the first result.
-/

namespace Aa.Toolbox

open Aa.Library

/-- What a provider returns for an invocation. -/
abbrev Reply := Except Error Json.Object

/-- The provider-agnostic invocation host. -/
structure Host where
  registry : Registry
  policy : Option Engine
  cache : GoMap String Result := ∅

namespace Host

/-- The error a denying decision is reported with. -/
def denial (decision : Decision) : Option Error :=
  if decision.allowed then none
  else if !decision.sandbox.allowed then some (.wrap .sandbox decision.reason)
  else some (.wrap .denied decision.reason)

/-- The policy step of an invocation: the error of a denial, and the host with the
decision recorded. -/
def enforce (host : Host) (manifest : Manifest) (contract : ExecutionContract) :
    Option Error × Host :=
  match host.policy with
  | none => (none, host)
  | some engine =>
      let evaluated := engine.evaluate manifest contract
      (denial evaluated.1, { host with policy := some evaluated.2 })

/-- Answers an invocation from the cache, or runs the provider, which returns `reply`. -/
def execute (host : Host) (invocation : Invocation) (contract : ExecutionContract)
    (reply : Reply) : Except Error Result × Host :=
  let contractId :=
    if contract.id = "" then invocation.executionContractId else contract.id
  let cacheKey := invocationKey invocation.toolId contractId invocation.idempotencyKey
  match host.cache.lookup cacheKey with
  | some cached => (.ok { cached with replayed := true }, host)
  | none =>
      match reply with
      | .error error => (.error error, host)
      | .ok output =>
          let result : Result := { toolId := invocation.toolId, output := output }
          (.ok result, { host with cache := host.cache.insert cacheKey result })

/-- Runs a tool under an execution contract; a provider that is invoked returns `reply`. -/
def invoke (host : Host) (invocation : Invocation) (contract : ExecutionContract)
    (reply : Reply) : Except Error Result × Host :=
  if invocation.toolId = "" then (.error (.wrap .invalid "toolId is required"), host)
  else
    match host.registry.get invocation.toolId with
    | none => (.error (.wrap .notFound ("tool " ++ Go.quote invocation.toolId)), host)
    | some manifest =>
        match host.enforce manifest contract with
        | (some error, host) => (.error error, host)
        | (none, host) =>
            match host.registry.providerForManifest manifest with
            | none => (.error (.wrap .noProvider (Go.quote manifest.toolKind)), host)
            | some _ => host.execute invocation contract reply

/-- Whether a tool may run under a contract: it is registered, and the policy engine,
when there is one, allows its manifest. -/
def Allows (host : Host) (toolId : String) (contract : ExecutionContract) : Prop :=
  ∃ manifest, host.registry.get toolId = some manifest ∧
    ∀ engine, host.policy = some engine → (engine.decide manifest contract).allowed = true

/-- Two hosts that decide every invocation alike. -/
structure SameGate (left right : Host) : Prop where
  registry : left.registry = right.registry
  policy : left.policy.map Engine.decide = right.policy.map Engine.decide

theorem SameGate.refl (host : Host) : host.SameGate host := ⟨rfl, rfl⟩

theorem SameGate.trans {first second third : Host} (left : first.SameGate second)
    (right : second.SameGate third) : first.SameGate third :=
  ⟨left.registry.trans right.registry, left.policy.trans right.policy⟩

theorem SameGate.allows_iff {left right : Host} (same : left.SameGate right)
    (toolId : String) (contract : ExecutionContract) :
    left.Allows toolId contract ↔ right.Allows toolId contract := by
  rcases same with ⟨sameRegistry, samePolicy⟩
  simp only [Allows, sameRegistry]
  constructor
  · rintro ⟨manifest, registered, allows⟩
    refine ⟨manifest, registered, ?_⟩
    intro engine rightPolicy
    cases leftPolicy : left.policy with
    | none => simp [leftPolicy, rightPolicy] at samePolicy
    | some leftEngine =>
        simp only [leftPolicy, rightPolicy, Option.map_some, Option.some.injEq] at samePolicy
        rw [← samePolicy]
        exact allows leftEngine leftPolicy
  · rintro ⟨manifest, registered, allows⟩
    refine ⟨manifest, registered, ?_⟩
    intro engine leftPolicy
    cases rightPolicy : right.policy with
    | none => simp [leftPolicy, rightPolicy] at samePolicy
    | some rightEngine =>
        simp only [leftPolicy, rightPolicy, Option.map_some, Option.some.injEq] at samePolicy
        rw [samePolicy]
        exact allows rightEngine rightPolicy

theorem denial_eq_none_iff (decision : Decision) :
    denial decision = none ↔ decision.allowed = true := by
  unfold denial
  split
  · simp_all
  · split <;> simp_all

theorem enforce_sameGate (host : Host) (manifest : Manifest) (contract : ExecutionContract) :
    host.SameGate (host.enforce manifest contract).2 := by
  unfold enforce
  split
  · exact .refl host
  · rename_i engine policyEq
    exact ⟨rfl, by simp [policyEq]; rfl⟩

theorem execute_sameGate (host : Host) (invocation : Invocation)
    (contract : ExecutionContract) (reply : Reply) :
    host.SameGate (host.execute invocation contract reply).2 := by
  simp only [execute]
  split
  · exact .refl host
  · split
    · exact .refl host
    · exact ⟨rfl, rfl⟩

/-- An invocation changes neither the registry nor what the policy engine decides. -/
theorem invoke_sameGate (host : Host) (invocation : Invocation)
    (contract : ExecutionContract) (reply : Reply) :
    host.SameGate (host.invoke invocation contract reply).2 := by
  simp only [invoke]
  split
  · exact .refl host
  · split
    · exact .refl host
    · rename_i manifest registered
      have enforced := host.enforce_sameGate manifest contract
      split
      · rename_i error denied enforceEq
        rw [enforceEq] at enforced
        exact enforced
      · rename_i allowed enforceEq
        rw [enforceEq] at enforced
        split
        · exact enforced
        · exact enforced.trans (execute_sameGate _ invocation contract reply)

theorem allowed_of_enforce {host : Host} {manifest : Manifest}
    {contract : ExecutionContract} (passed : (host.enforce manifest contract).1 = none)
    (engine : Engine) (policyEq : host.policy = some engine) :
    (engine.decide manifest contract).allowed = true := by
  simp only [enforce, policyEq] at passed
  exact (denial_eq_none_iff _).mp passed

/-- Every result of the host, replayed or not, is for a tool its gate allows. -/
theorem allows_of_invoke_ok {host : Host} {invocation : Invocation}
    {contract : ExecutionContract} {reply : Reply} {result : Result}
    (invoked : (host.invoke invocation contract reply).1 = .ok result) :
    host.Allows invocation.toolId contract := by
  simp only [invoke] at invoked
  split at invoked
  · simp at invoked
  · split at invoked
    · simp at invoked
    · rename_i manifest registered
      split at invoked
      · simp at invoked
      · rename_i enforceEq
        exact ⟨manifest, registered, allowed_of_enforce (by rw [enforceEq])⟩

end Host

end Aa.Toolbox
