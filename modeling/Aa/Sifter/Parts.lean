import Aa.Library.Course
import Aa.Sifter.App

/-!
# Properties that follow from the parts of a run

A property of coroutines follows from their parts if it holds of a sequence whose parts it holds
of, and of a guarded block that only handles what a run handles. Each function of a run then has
it as soon as its calls, its verifications and its requests to the human have.
-/

namespace Aa.Sifter

open Aa.Library

/-- The change keeps the budget and what the usage counts of the expert's generations. -/
def KeepsBooks (change : Session → Session) : Prop :=
  ∀ session, (change session).budget = session.budget ∧
    (change session).usage.cloudCalls = session.usage.cloudCalls ∧
    (change session).usage.cloudInputTokens = session.usage.cloudInputTokens ∧
    (change session).usage.cloudOutputTokens = session.usage.cloudOutputTokens ∧
    (change session).usage.cloudCost = session.usage.cloudCost

/-- The property holds of what its parts make. -/
structure FollowsFromParts (holds : ∀ {α : Type}, Run α → Prop) : Prop where
  pure : ∀ {α : Type} (value : α), holds (Pure.pure value : Run α)
  read : holds (Coroutine.read : Run Session)
  note : ∀ {change : Session → Session}, KeepsBooks change →
    holds (Coroutine.modify change : Run PUnit)
  exceeded : ∀ {α : Type} (exceeded : BudgetExceeded),
    holds (Coroutine.raise (.budgetExceeded exceeded) : Run α)
  failed : ∀ {α : Type} (message : String),
    holds (Coroutine.raise (.providerError message) : Run α)
  bind : ∀ {α β : Type} {first : Run β} {rest : β → Run α}, holds first →
    (∀ value, holds (rest value)) → holds (first >>= rest)
  catching : ∀ {α : Type} {body : Run α} {handler : Raised → Run α}, holds body →
    (∀ exceeded, holds (handler (.budgetExceeded exceeded))) →
    (∀ message, holds (handler (.providerError message))) →
    (∀ message, handler (.other message) = Coroutine.raise (.other message)) →
    holds (Coroutine.catching body handler)

theorem only_follows {holds : Event Op Op.Answer → Prop} :
    FollowsFromParts fun {_} coroutine => coroutine.Only holds where
  pure := .pure
  read := .read
  note _ := .modify _
  exceeded _ := .raise _
  failed _ := .raise _
  bind := .bind
  catching body exceeded failed others := by
    refine .catching body fun raised => ?_
    cases raised with
    | budgetExceeded reason => exact exceeded reason
    | providerError message => exact failed message
    | other message =>
        rw [others]
        exact .raise _

/-- That each execution goes on follows from the parts, if the notes go on. -/
theorem steady_follows {course : Course Op Op.Answer Session}
    (notes : ∀ change, KeepsBooks change →
      Coroutine.Steady course (Coroutine.modify change : Run PUnit)) :
    FollowsFromParts fun {_} coroutine => Coroutine.Steady course coroutine where
  pure value := .of_idle (.pure value)
  read := .of_idle .read
  note := notes _
  exceeded _ := .of_idle (.raise _)
  failed _ := .of_idle (.raise _)
  bind := .bind
  catching body exceeded failed others := by
    refine .catching body fun raised => ?_
    cases raised with
    | budgetExceeded reason => exact exceeded reason
    | providerError message => exact failed message
    | other message =>
        rw [others]
        exact .of_idle (.raise _)

namespace FollowsFromParts

variable {sifter : ComputeSifter} {task : Task} {holds : ∀ {α : Type}, Run α → Prop}
  (parts : FollowsFromParts holds)

include parts

/-! ## The approval path -/

theorem analysed {decision : HumanDecision}
    (analyses : holds (sifter.callTier .expert
      (sifter.analysisMessages task decision.constraints) .expertAnalysis))
    (asks : ∀ level analysis,
      holds (sifter.requireApproval (ComputeSifter.implementRequest level analysis))) :
    holds (sifter.analysed task decision) := by
  refine parts.bind (parts.bind analyses fun _ => parts.pure _) fun analysis => ?_
  refine parts.bind (parts.note fun _ => ⟨rfl, rfl, rfl, rfl, rfl⟩) fun _ => ?_
  refine parts.bind (asks _ _) fun second => ?_
  refine parts.bind (parts.note fun _ => ⟨rfl, rfl, rfl, rfl, rfl⟩) fun _ => ?_
  split
  · exact parts.pure _
  · exact parts.pure _

theorem handleMajorDecision
    (analyses : ∀ constraints, holds (sifter.callTier .expert
      (sifter.analysisMessages task constraints) .expertAnalysis))
    (asks : ∀ request, holds (sifter.requireApproval request))
    (classification : DecisionClassification) :
    holds (sifter.handleMajorDecision task classification) := by
  refine parts.bind (asks _) fun decision => ?_
  refine parts.bind (parts.note fun _ => ⟨rfl, rfl, rfl, rfl, rfl⟩) fun _ => ?_
  split
  · exact parts.pure _
  · exact parts.pure _
  · exact parts.pure _
  · exact parts.pure _
  · exact parts.pure _
  · exact parts.pure _
  · exact parts.pure _
  · exact parts.analysed (analyses _) fun _ _ => asks _

/-! ## Execution -/

theorem tryLocally {messages : List (Message Char)}
    (calls : holds (sifter.callTier .local messages .localExecute)) :
    holds (sifter.tryLocally messages) := by
  refine parts.catching (parts.bind calls fun _ => parts.pure _) ?_ ?_ ?_
  · exact fun exceeded => parts.exceeded exceeded
  · exact fun message => parts.pure _
  · exact fun message => rfl

theorem attemptLocally {base : List (Message Char)}
    (calls : ∀ attempt answer, holds (sifter.callTier .local
      (ComputeSifter.attemptMessages base attempt answer) .localExecute))
    (verifies : ∀ answer, holds (ComputeSifter.verify answer)) (remaining attempt : ℕ)
    (execution : ComputeSifter.Execution) :
    holds (sifter.attemptLocally base remaining attempt execution) := by
  induction remaining generalizing attempt execution with
  | zero => exact parts.pure _
  | succ remaining ih =>
      refine parts.bind (parts.tryLocally (calls _ _)) fun tried => ?_
      cases tried with
      | error message => exact ih _ _
      | ok answer =>
          refine parts.bind (verifies answer) fun verification => ?_
          dsimp only
          split
          · exact parts.pure _
          · refine parts.bind (parts.note fun _ => ⟨rfl, rfl, rfl, rfl, rfl⟩) fun _ => ih _ _

theorem reviewed {plan answer : String}
    (calls : ∀ messages, holds (sifter.callTier .expert messages .cloudReview)) :
    holds (sifter.reviewed plan answer) := by
  refine parts.catching (parts.bind (calls _) fun _ => parts.pure _) ?_ ?_ ?_
  · exact fun exceeded => parts.pure _
  · exact fun message => parts.failed message
  · exact fun message => rfl

theorem executeRoute {route : RouteDecision}
    (reasons : route.kind ≠ .local →
      ∀ messages purpose, holds (sifter.callTier .expert messages purpose))
    (calls : ∀ messages, holds (sifter.callTier .local messages .localExecute))
    (verifies : ∀ answer, holds (ComputeSifter.verify answer))
    (humanConstraints approvedDecisions : List String) :
    holds (sifter.executeRoute task route humanConstraints approvedDecisions) := by
  unfold ComputeSifter.executeRoute
  dsimp only
  split
  · rename_i isCloud
    have byExpert := reasons (by simp [isCloud])
    refine parts.bind (byExpert _ _) fun answer => ?_
    exact parts.bind (verifies answer) fun _ => parts.pure _
  · rename_i isHybrid
    have byExpert := reasons (by simp [isHybrid])
    refine parts.bind (byExpert _ _) fun plan => parts.bind (calls _) fun answer => ?_
    refine parts.bind (verifies answer) fun verification => ?_
    split
    · exact parts.bind (parts.reviewed fun _ => byExpert _ _) fun _ => parts.pure _
    · exact parts.pure _
  · exact parts.attemptLocally (fun _ _ => calls _) verifies _ _ _

/-! ## Escalation -/

theorem escalationAllowed (asks : holds (sifter.requireApproval ComputeSifter.escalationRequest))
    (outcome : EscalationOutcome) (autonomyGrant allowed : Bool) :
    holds (sifter.escalationAllowed outcome autonomyGrant allowed) := by
  unfold ComputeSifter.escalationAllowed
  split
  · refine parts.bind asks fun decision => ?_
    refine parts.bind (parts.note fun _ => ⟨rfl, rfl, rfl, rfl, rfl⟩) fun _ => ?_
    split
    · exact parts.pure _
    · exact parts.pure _
  · exact parts.pure _

theorem diagnosed {packet : EscalationPacket} {answer : String}
    (calls : ∀ messages, holds (sifter.callTier .expert messages .cloudEscalation)) :
    holds (sifter.diagnosed packet answer) := by
  refine parts.catching (parts.bind (calls _) fun _ => parts.pure _) ?_ ?_ ?_
  · exact fun exceeded => parts.pure _
  · exact fun message => parts.failed message
  · exact fun message => rfl

theorem resolved {direction : ComputeSifter.Direction} {execution : ComputeSifter.Execution}
    (asks : holds (sifter.requireApproval ComputeSifter.escalationRequest))
    (calls : ∀ messages, holds (sifter.callTier .expert messages .cloudEscalation)) :
    holds (sifter.resolved task direction execution) := by
  unfold ComputeSifter.resolved
  split
  · exact parts.pure _
  · refine parts.bind (parts.note fun _ => ⟨rfl, rfl, rfl, rfl, rfl⟩) fun _ => ?_
    refine parts.bind (parts.escalationAllowed asks _ _ _) fun verdict => ?_
    split
    · exact parts.pure _
    · exact parts.pure _
    · exact parts.diagnosed calls

/-! ## A run -/

theorem finish {status answer : String} {classification : DecisionClassification}
    {assessment : PreflightAssessment} {blockedReason route : Option String}
    {direction : ComputeSifter.Direction} :
    holds (ComputeSifter.finish status answer classification assessment blockedReason route
      direction) :=
  parts.bind parts.read fun _ => parts.pure _

theorem carryOut (calls : ∀ tier messages purpose, holds (sifter.callTier tier messages purpose))
    (verifies : ∀ answer, holds (ComputeSifter.verify answer))
    (asks : ∀ request, holds (sifter.requireApproval request)) (direction : ComputeSifter.Direction) :
    holds (sifter.carryOut task direction) := by
  refine parts.bind parts.read fun session => ?_
  refine parts.bind ?_ fun execution => ?_
  · exact parts.executeRoute (fun _ => calls _) (fun _ => calls _ _ _) verifies _ _
  · exact parts.bind (parts.resolved (asks _) fun _ => calls _ _ _) fun _ => parts.finish

theorem run (calls : ∀ tier messages purpose, holds (sifter.callTier tier messages purpose))
    (verifies : ∀ answer, holds (ComputeSifter.verify answer))
    (asks : ∀ request, holds (sifter.requireApproval request)) :
    holds (sifter.run task) := by
  refine parts.catching ?_ ?_ ?_ ?_
  · unfold ComputeSifter.runBody
    dsimp only
    split
    · refine parts.bind (parts.handleMajorDecision (fun _ => calls _ _ _) asks _) fun decided => ?_
      split
      · exact parts.finish
      · exact parts.carryOut calls verifies asks _
    · exact parts.carryOut calls verifies asks _
  · exact fun exceeded => parts.finish
  · exact fun message => parts.finish
  · exact fun message => rfl

end FollowsFromParts

end Aa.Sifter
