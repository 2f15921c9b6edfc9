import Aa.Toolbox.Policy

/-!
# Soundness of the policy engine

An allowed tool has every capability it declares granted and none denied, network
access included when its sandbox asks for it, and a required sandbox can be enforced.
The capability switch lets a denial win over a grant; the sandbox check looks at the
grants alone, so that a capability needed only through the sandbox is the one place
where a denial is lost.
-/

namespace Aa.Toolbox.Engine

open Aa.Library

/-- The contract grants the capability and does not deny it. -/
def Holds (contract : ExecutionContract) (capability : String) : Prop :=
  capability ∈ contract.capabilities ∧ capability ∉ contract.denied

/-- A required sandbox of the manifest has a declared kind the enforcer can enforce. -/
def Enforceable (engine : Engine) (spec : Contracts.V1.SandboxSpec) : Prop :=
  spec.required = true → spec.kind ≠ "" ∧ spec.kind ≠ "none" ∧
    ∃ canEnforce, engine.enforcer = some canEnforce ∧ canEnforce spec.kind = true

/-- The decision allows a tool only with all it needs, and accounts for every declared
capability once. -/
structure Sound (engine : Engine) (manifest : Manifest) (contract : ExecutionContract)
    (decision : Decision) : Prop where
  declared : decision.allowed = true → ∀ capability ∈ manifest.capabilities,
    Holds contract capability
  network : decision.allowed = true → ∀ spec, manifest.sandbox = some spec →
    spec.network = true → Holds contract capNetworkAccess
  sandbox : decision.allowed = true → ∀ spec, manifest.sandbox = some spec →
    engine.Enforceable spec
  partition : (decision.granted ++ decision.missing ++ decision.denied).Perm
    manifest.capabilities

variable (engine : Engine) (manifest : Manifest) (contract : ExecutionContract)

theorem declared_iff :
    ((manifest.capabilities.filter (· ∉ contract.denied)).filter
        (· ∉ contract.capabilities)).isEmpty = true ∧
      (manifest.capabilities.filter (· ∈ contract.denied)).isEmpty = true ↔
    ∀ capability ∈ manifest.capabilities, Holds contract capability := by
  simp only [List.isEmpty_iff, List.filter_eq_nil_iff, List.mem_filter, decide_eq_true_eq,
    Holds, and_imp, not_not]
  constructor
  · rintro ⟨noneMissing, noneDenied⟩ capability isThere
    have notDenied := noneDenied capability isThere
    exact ⟨noneMissing capability isThere notDenied, notDenied⟩
  · intro allHeld
    exact ⟨fun capability isThere _ => (allHeld capability isThere).1,
      fun capability isThere => (allHeld capability isThere).2⟩

/-- The sandbox check asks for the grant of network access, and not for its denial. -/
theorem evaluateSandbox_allowed_iff :
    (engine.evaluateSandbox manifest contract.capabilities).allowed = true ↔
      ∀ spec, manifest.sandbox = some spec →
        (spec.network = true → capNetworkAccess ∈ contract.capabilities) ∧
          engine.Enforceable spec := by
  cases isSandbox : manifest.sandbox with
  | none => simp [evaluateSandbox, isSandbox]
  | some spec =>
      simp only [Option.some.injEq, forall_eq']
      by_cases blocked : spec.network = true ∧ capNetworkAccess ∉ contract.capabilities
      · simp [evaluateSandbox, isSandbox, blocked]
      · have granted : spec.network = true → capNetworkAccess ∈ contract.capabilities :=
          fun network => not_not.mp fun notThere => blocked ⟨network, notThere⟩
        rw [and_iff_right granted]
        simp only [evaluateSandbox, isSandbox, if_neg blocked, Enforceable]
        cases isRequired : spec.required with
        | false => simp
        | true =>
            by_cases unnamed : spec.kind = ""
            · simp [unnamed]
            · by_cases isNone : spec.kind = "none"
              · simp [isNone]
              · cases isEnforcer : engine.enforcer with
                | none => simp [unnamed, isNone]
                | some canEnforce =>
                    cases can : canEnforce spec.kind <;> simp [unnamed, isNone, can]

theorem decide_allowed_iff :
    (engine.decide manifest contract).allowed = true ↔
      (∀ capability ∈ manifest.capabilities, Holds contract capability) ∧
        ∀ spec, manifest.sandbox = some spec →
          (spec.network = true → capNetworkAccess ∈ contract.capabilities) ∧
            engine.Enforceable spec := by
  rw [← declared_iff, ← evaluateSandbox_allowed_iff]
  simp only [decide, Bool.and_eq_true]

/-- Every declared capability is granted, missing or denied, as often as it is declared. -/
theorem decide_partition :
    ((engine.decide manifest contract).granted ++ (engine.decide manifest contract).missing ++
      (engine.decide manifest contract).denied).Perm manifest.capabilities := by
  have sorted (capabilities : List String) : (Go.sortStrings capabilities).Perm capabilities :=
    List.perm_insertionSort _ _
  have splits (capabilities : List String) (inList : String → Bool) :
      (capabilities.filter inList ++ capabilities.filter fun capability => !inList capability).Perm
        capabilities :=
    List.filter_append_perm _ _
  simp only [decide]
  refine (((sorted _).append (sorted _)).append (sorted _)).trans ?_
  have others := splits (manifest.capabilities.filter (· ∉ contract.denied))
    (· ∈ contract.capabilities)
  have all := splits manifest.capabilities (· ∈ contract.denied)
  simp only [← decide_not] at others all
  exact (others.append_right _).trans (List.perm_append_comm.trans all)

/-- Evaluation is sound unless the tool is allowed by everything but a denial of network
access that only its sandbox needs. -/
theorem evaluate_sound_iff :
    Sound engine manifest contract (engine.evaluate manifest contract).1 ↔
      ¬ ∃ spec, manifest.sandbox = some spec ∧ spec.network = true ∧
        capNetworkAccess ∈ contract.capabilities ∧ capNetworkAccess ∈ contract.denied ∧
        (∀ capability ∈ manifest.capabilities, Holds contract capability) ∧
        engine.Enforceable spec := by
  have allowedIff := engine.decide_allowed_iff manifest contract
  constructor
  · rintro sound ⟨spec, isSandbox, network, granted, denied, declared, enforceable⟩
    have isAllowed : (engine.decide manifest contract).allowed = true := by
      refine allowedIff.mpr ⟨declared, fun other isOther => ?_⟩
      rw [isSandbox] at isOther
      cases isOther
      exact ⟨fun _ => granted, enforceable⟩
    exact (sound.network isAllowed spec isSandbox network).2 denied
  · intro notLost
    refine ⟨?_, ?_, ?_, engine.decide_partition manifest contract⟩
    · intro isAllowed
      exact (allowedIff.mp isAllowed).1
    · intro isAllowed spec isSandbox network
      rcases allowedIff.mp isAllowed with ⟨declared, sandboxed⟩
      rcases sandboxed spec isSandbox with ⟨granted, enforceable⟩
      refine ⟨granted network, fun denied => notLost ?_⟩
      exact ⟨spec, isSandbox, network, granted network, denied, declared, enforceable⟩
    · intro isAllowed spec isSandbox
      exact ((allowedIff.mp isAllowed).2 spec isSandbox).2

/-- A tool that declares reading the project, in a sandbox with network. -/
def networkedReader : Manifest where
  contractVersion := "1.0"
  kind := "tool_manifest"
  id := "tool_a"
  name := "tool_a"
  toolKind := "tool"
  version := "1.0"
  capabilities := ["read_project"]
  sandbox := some { network := true }

/-- A contract that grants network access and denies it. -/
def deniedNetwork : ExecutionContract where
  capabilities := ["read_project", "network_access"]
  denied := ["network_access"]

theorem deniedNetwork_allowed :
    ¬ Sound { enforcer := none, clock := id } networkedReader deniedNetwork
      (evaluate { enforcer := none, clock := id } networkedReader deniedNetwork).1 := by
  intro sound
  have isAllowed : (evaluate { enforcer := none, clock := id } networkedReader
      deniedNetwork).1.allowed = true := by
    decide
  exact (sound.network isAllowed { network := true } rfl rfl).2 (by decide)

end Aa.Toolbox.Engine
