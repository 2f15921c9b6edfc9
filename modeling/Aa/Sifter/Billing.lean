import Aa.Library.Course
import Aa.Sifter.ApprovedRun

/-!
# The two ledgers of a run

A generation is charged to the budget by the tier that it was called for and billed to the
usage by the tier that the provider's parser stamps on the result. Each ledger is the sum of its
own amounts over the run, so that they agree exactly if the generations that are stamped with
another tier than their call's cancel.
-/

namespace Aa.Sifter

open Aa.Library

/-- Calls, tokens and cost. -/
abbrev Bill := ℤ × ℤ × ℚ

/-- The cloud part of the usage. -/
def UsageMetrics.bill (usage : UsageMetrics) : Bill :=
  (usage.cloudCalls, usage.cloudInputTokens + usage.cloudOutputTokens, usage.cloudCost)

def BudgetTracker.bill (tracker : BudgetTracker) : Bill :=
  (tracker.budget.calls, tracker.budget.tokens, tracker.budget.cost)

/-- What a generation costs at the rates of a model. -/
def GenerationResult.bill (result : GenerationResult) (model : ModelConfig) : Bill :=
  (1, result.inputTokens + result.outputTokens,
    model.estimateCost result.inputTokens result.outputTokens)

namespace ComputeSifter

variable {sifter : ComputeSifter} {task : Task} {before after : Session}
  {events : List (Event Op Op.Answer)}

/-- What an event adds to the budget: a generation that was called for the expert tier. -/
def charged (sifter : ComputeSifter) (event : Event Op Op.Answer) : Bill :=
  match event with
  | ⟨.generate call, .ok result⟩ =>
      if call.tier = .expert then result.bill (sifter.modelConfig call.tier) else 0
  | _ => 0

/-- What an event adds to the usage of the cloud: a generation that is stamped with the expert
tier. -/
def billed (sifter : ComputeSifter) (event : Event Op Op.Answer) : Bill :=
  match event with
  | ⟨.generate call, .ok result⟩ =>
      if result.tier = .expert then result.bill (sifter.modelConfig call.tier) else 0
  | _ => 0

/-- Both ledgers of a run. -/
def ledgers (session : Session) : Bill × Bill := (session.usage.bill, session.budget.bill)

/-- The runs that keep both ledgers as the sums of their events. -/
def keeping (sifter : ComputeSifter) : Course Op Op.Answer Session :=
  Coroutine.tallying ledgers fun event => (sifter.billed event, sifter.charged event)

theorem ledgers_recordGeneration (tier : Tier) (result : GenerationResult) (session : Session) :
    ledgers (sifter.recordGeneration tier result session) = ledgers session +
      (if result.tier = .expert then result.bill (sifter.modelConfig tier) else 0,
        if tier = .expert then result.bill (sifter.modelConfig tier) else 0) := by
  have isUsage : (session.usage.recordGeneration result (sifter.modelConfig tier)).bill =
      session.usage.bill +
        if result.tier = .expert then result.bill (sifter.modelConfig tier) else 0 := by
    cases isTier : result.tier with
    | «local» => simp [UsageMetrics.recordGeneration, UsageMetrics.bill, isTier]
    | expert =>
        simp only [UsageMetrics.recordGeneration, UsageMetrics.bill, isTier, reduceCtorEq, if_false,
          if_true, GenerationResult.bill, Prod.mk_add_mk, Nat.cast_add, Nat.cast_one]
        ring_nf
  have isBudget : (if tier = .expert then session.budget.record result (sifter.modelConfig tier)
      else session.budget).bill =
      session.budget.bill + if tier = .expert then result.bill (sifter.modelConfig tier) else 0 := by
    cases tier with
    | «local» => simp
    | expert => rfl
  rw [ledgers, recordGeneration, isUsage, isBudget]
  rfl

theorem checkBudget_keeping (tier : Tier) (messages : List (Message Char)) :
    Coroutine.Steady sifter.keeping (sifter.checkBudget tier messages) := by
  intro before events outcome after does
  cases tier with
  | «local» =>
      rcases checkBudget_local.mp does with ⟨rfl, _, rfl⟩
      exact sifter.keeping.nil _
  | expert =>
      rcases checkBudget_expert.mp does with ⟨rfl, _, rfl⟩
      have sameBudget : (sifter.checked before.budget messages).2.bill = before.budget.bill := by
        rw [checked, BudgetTracker.check]
        split <;> rfl
      have isFree (event : Event Op Op.Answer) (isCheck : event = sifter.checkEvent before.budget
          messages) : (sifter.billed event, sifter.charged event) = (0 : Bill × Bill) := by
        rw [isCheck]
        rfl
      change ledgers _ = ledgers before + _
      rw [List.map_singleton, List.sum_singleton, isFree _ rfl, add_zero, ledgers, sameBudget]
      rfl

/-- A call to a tier adds what it returns to both ledgers, by its stamp and by its tier. -/
theorem callTier_keeping (tier : Tier) (messages : List (Message Char)) (purpose : Purpose) :
    Coroutine.Steady sifter.keeping (sifter.callTier tier messages purpose) := by
  unfold callTier
  dsimp only
  split
  · exact .of_idle (.raise _)
  · split
    · exact .of_idle (.raise _)
    · refine .bind (checkBudget_keeping tier _) fun _ => ?_
      intro before events outcome after does
      rcases Coroutine.does_bind.mp does with ⟨result, _, _, _, calling, counting, rfl⟩ |
          ⟨raised, calling, rfl⟩
      · rcases Coroutine.does_perform.mp calling with ⟨_, rfl, isReply, rfl⟩
        cases isReply
        rcases Coroutine.does_bind.mp counting with ⟨_, _, _, _, recording, returning, rfl⟩ |
            ⟨raised, recording, _⟩
        · rcases Coroutine.does_modify.mp recording with ⟨rfl, _, rfl⟩
          rcases Coroutine.does_pure.mp returning with ⟨rfl, _, rfl⟩
          refine (ledgers_recordGeneration tier result _).trans ?_
          rw [List.append_nil, List.append_nil, List.map_singleton, List.sum_singleton]
          rfl
        · cases (Coroutine.does_modify.mp recording).2.1
      · rcases Coroutine.does_perform.mp calling with ⟨_, rfl, isReply, rfl⟩
        cases isReply
        change ledgers _ = ledgers _ + _
        rw [List.map_singleton, List.sum_singleton]
        exact (add_zero _).symm

/-! ## A whole run -/

theorem requireApproval_keeping (request : ApprovalRequest) :
    Coroutine.Steady sifter.keeping (sifter.requireApproval request) := by
  refine .bind (.perform_free fun _ => rfl) fun decision => ?_
  dsimp only
  split
  · exact .bind (.perform_free fun _ => rfl) fun _ => .of_idle (.pure _)
  · exact .of_idle (.pure _)

theorem verify_keeping (answer : String) : Coroutine.Steady sifter.keeping (verify answer) :=
  .perform_free fun _ => rfl

theorem keeping_follows :
    FollowsFromParts fun {_} coroutine => Coroutine.Steady sifter.keeping coroutine := by
  refine steady_follows fun change keeps => .modify_free fun session => ?_
  rcases keeps session with ⟨budget, calls, input, output, cost⟩
  simp only [ledgers, UsageMetrics.bill, budget, calls, input, output, cost]

theorem run_keeping (task : Task) : Coroutine.Steady sifter.keeping (sifter.run task) :=
  keeping_follows.run callTier_keeping verify_keeping requireApproval_keeping

theorem sum_map_pair (first second : Event Op Op.Answer → Bill) :
    (events.map fun event => (first event, second event)).sum =
      ((events.map first).sum, (events.map second).sum) := by
  induction events with
  | nil => rfl
  | cons event rest ih =>
      simp only [List.map_cons, List.sum_cons, ih]
      rfl

/-- Each ledger of a run is the sum of its amounts. -/
theorem run_ledgers {outcome : Except Raised SifterResult}
    (does : (sifter.run task).Does (sifter.newSession task) events outcome after) :
    after.usage.bill = (events.map sifter.billed).sum ∧
      after.budget.bill = (events.map sifter.charged).sum := by
  have isTally : ledgers after = ledgers (sifter.newSession task) +
      (events.map fun event => (sifter.billed event, sifter.charged event)).sum :=
    run_keeping task _ _ _ _ does
  have isNew : ledgers (sifter.newSession task) = 0 := rfl
  rw [isNew, zero_add, sum_map_pair] at isTally
  exact Prod.mk.inj isTally

/-! ## When the ledgers agree -/

/-- A generation of the expert tier that returned. -/
def isExpertGeneration (event : Event Op Op.Answer) : Bool :=
  match event with
  | ⟨.generate call, .ok _⟩ => call.tier = .expert
  | _ => false

/-- Usage and budget agree, and with the expert generations of the run. -/
structure Agree (events : List (Event Op Op.Answer)) (after : Session) : Prop where
  bill : after.usage.bill = after.budget.bill
  generations : after.usage.cloudCalls = events.countP isExpertGeneration

/-- A local generation that is stamped as one of the expert. -/
def overbilled (sifter : ComputeSifter) (event : Event Op Op.Answer) : Bill :=
  match event with
  | ⟨.generate call, .ok result⟩ =>
      if call.tier = .local ∧ result.tier = .expert then result.bill (sifter.modelConfig call.tier)
      else 0
  | _ => 0

/-- A generation of the expert that is stamped as a local one. -/
def underbilled (sifter : ComputeSifter) (event : Event Op Op.Answer) : Bill :=
  match event with
  | ⟨.generate call, .ok result⟩ =>
      if call.tier = .expert ∧ result.tier = .local then result.bill (sifter.modelConfig call.tier)
      else 0
  | _ => 0

/-- The result carries the tier of its call. -/
def Stamped (event : Event Op Op.Answer) : Prop :=
  ∀ call result, event = ⟨.generate call, .ok result⟩ → result.tier = call.tier

theorem billed_add_underbilled (event : Event Op Op.Answer) :
    sifter.billed event + sifter.underbilled event =
      sifter.charged event + sifter.overbilled event := by
  rcases event with ⟨op, answer⟩
  cases op with
  | generate call =>
      cases answer with
      | error raised => rfl
      | ok result =>
          cases onTier : call.tier <;> cases isStamp : result.tier <;>
            simp [billed, underbilled, charged, overbilled, onTier, isStamp]
  | approval request => rfl
  | recordApproval request decision => rfl
  | budgetCheck tokens cost denied => rfl
  | verify answer => rfl

theorem sums_balance : (events.map sifter.billed).sum + (events.map sifter.underbilled).sum =
    (events.map sifter.charged).sum + (events.map sifter.overbilled).sum := by
  rw [← List.sum_map_add, ← List.sum_map_add]
  exact congrArg List.sum (List.map_congr_left fun event _ => billed_add_underbilled event)

/-- The calls charged are the expert generations. -/
theorem charged_calls :
    ((events.map sifter.charged).sum).1 = events.countP isExpertGeneration := by
  have isOne (event : Event Op Op.Answer) :
      (sifter.charged event).1 = if isExpertGeneration event then 1 else 0 := by
    rcases event with ⟨op, answer⟩
    cases op with
    | generate call =>
        cases answer with
        | error raised => rfl
        | ok result =>
            cases onTier : call.tier <;>
              simp [charged, isExpertGeneration, onTier, GenerationResult.bill]
    | approval request => rfl
    | recordApproval request decision => rfl
    | budgetCheck tokens cost denied => rfl
    | verify answer => rfl
  induction events with
  | nil => rfl
  | cons event rest ih =>
      rw [List.map_cons, List.sum_cons, Prod.fst_add, ih, isOne, List.countP_cons]
      split <;> push_cast <;> ring

/-- The ledgers of a run agree exactly if the generations with the wrong stamp cancel. -/
theorem agree_iff {outcome : Except Raised SifterResult}
    (does : (sifter.run task).Does (sifter.newSession task) events outcome after) :
    Agree events after ↔
      (events.map sifter.overbilled).sum = (events.map sifter.underbilled).sum := by
  rcases run_ledgers does with ⟨isUsage, isBudget⟩
  have balance := @sums_balance sifter events
  have sameBill : after.usage.bill = after.budget.bill ↔
      (events.map sifter.overbilled).sum = (events.map sifter.underbilled).sum := by
    rw [isUsage, isBudget]
    constructor
    · intro same
      rw [same] at balance
      exact (add_left_cancel balance).symm
    · intro cancel
      rw [cancel] at balance
      exact add_right_cancel balance
  rw [← sameBill]
  refine ⟨fun agree => agree.bill, fun same => ⟨same, ?_⟩⟩
  have isCount : (after.usage.cloudCalls : ℤ) = (events.map sifter.charged).sum.1 :=
    congrArg Prod.fst (same.trans isBudget)
  rw [charged_calls] at isCount
  exact_mod_cast isCount

theorem agree_of_stamped {outcome : Except Raised SifterResult}
    (does : (sifter.run task).Does (sifter.newSession task) events outcome after)
    (areStamped : ∀ event ∈ events, Stamped event) : Agree events after := by
  have neither (event : Event Op Op.Answer) (isStamped : Stamped event) :
      sifter.overbilled event = 0 ∧ sifter.underbilled event = 0 := by
    rcases event with ⟨op, answer⟩
    cases op with
    | generate call =>
        cases answer with
        | error raised => exact ⟨rfl, rfl⟩
        | ok result =>
            have sameTier := isStamped call result rfl
            cases onTier : call.tier <;>
              simp [overbilled, underbilled, onTier, sameTier]
    | approval request => exact ⟨rfl, rfl⟩
    | recordApproval request decision => exact ⟨rfl, rfl⟩
    | budgetCheck tokens cost denied => exact ⟨rfl, rfl⟩
    | verify answer => exact ⟨rfl, rfl⟩
  refine (agree_iff does).mpr (congrArg List.sum (List.map_congr_left fun event isThere => ?_))
  rw [(neither event (areStamped event isThere)).1, (neither event (areStamped event isThere)).2]

end ComputeSifter

/-! ## What the parsers stamp -/

/-- The tier that a provider's response parser stamps on a result; an injected provider stamps
what it likes. -/
def Provider.stamp (provider : Provider) (model : String) : Option Tier :=
  match provider with
  | .ollama _ => some (if Py.endsWith model ":cloud" then .expert else .local)
  | .deepSeek _ _ => some .expert
  | .openAICompatible _ _ => some .expert
  | .injected _ => none

namespace ComputeSifter

variable {sifter : ComputeSifter} {task : Task} {after : Session}
  {events : List (Event Op Op.Answer)}

/-- A result as the parser of its provider makes it. -/
def Parsed (event : Event Op Op.Answer) : Prop :=
  ∀ call result tier, event = ⟨.generate call, .ok result⟩ →
    call.provider.stamp call.model = some tier → result.tier = tier

/-- The provider of a tier's model stamps its results with that tier. -/
def StampsRight (sifter : ComputeSifter) (tier : Tier) : Prop :=
  ∀ provider, sifter.registry.providerFor (sifter.modelConfig tier).name
    (sifter.modelConfig tier).provider = .ok provider →
      provider.stamp (sifter.modelConfig tier).name = some tier

end ComputeSifter

end Aa.Sifter
