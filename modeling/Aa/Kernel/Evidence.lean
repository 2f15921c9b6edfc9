import Mathlib.Data.Rat.Defs
import Aa.Library.GoError
import Aa.Library.GoText

/-!
# Attempts: context, results, intake and telemetry

What an attempt is given and what comes back from it. The context compiler bounds what a
runtime sees; a result is untrusted data until intake has validated and deduplicated it;
telemetry derives learning candidates from the evidence. SHA-256 and the JSON of a
result are parameters.
-/

namespace Aa.Kernel

open Aa.Library

namespace Context

/-- A candidate context item. -/
@[ext]
structure Input where
  kind : String
  id : String
  text : String
deriving DecidableEq

/-- An included item with a token estimate. -/
structure Section where
  kind : String
  id : String
  text : String
  tokens : ℤ

/-- A compiled context. -/
structure Bundle where
  projectId : String
  workPackageId : String
  sections : List Section := []
  tokenBudget : ℤ
  tokensUsed : ℤ := 0
  truncated : Bool := false
  digest : String := ""

/-- Tokens as `ceil(runes/4)`. -/
def estimateTokens (text : String) : ℤ := ((text.toList.length + 3) / 4 : ℕ)

def defaultMaxTokens : ℤ := 8000

def truncateToTokens (text : String) (maxTokens : ℤ) : String :=
  let maxRunes := maxTokens * 4
  if text.toList.length ≤ maxRunes then text
  else if maxRunes ≤ 1 then ""
  else Go.trimSpace (String.ofList (text.toList.take (maxRunes - 1).toNat)) ++ "…"

/-- The order of inputs: by kind, then by id. -/
def precedes (left right : Input) : Prop :=
  left.kind < right.kind ∨ left.kind = right.kind ∧ left.id ≤ right.id

instance : DecidableRel precedes := fun _ _ => inferInstanceAs (Decidable (_ ∨ _))

/-- The sections of sorted inputs under a budget of which `used` is spent, the tokens used
in the end, and whether the context was truncated. -/
def includeInputs (budget used : ℤ) : List Input → List Section × ℤ × Bool
  | [] => ([], used, false)
  | input :: rest =>
      if input.text = "" then includeInputs budget used rest
      else
        let tokens := estimateTokens input.text
        if used + tokens ≤ budget then
          let (sections, total, truncated) := includeInputs budget (used + tokens) rest
          (⟨input.kind, input.id, input.text, tokens⟩ :: sections, total, truncated)
        else if budget - used ≤ 0 then ([], used, true)
        else
          let truncated := truncateToTokens input.text (budget - used)
          if truncated = "" then ([], used, true)
          else
            ([⟨input.kind, input.id, truncated, estimateTokens truncated⟩],
              used + estimateTokens truncated, true)

/-- The text a bundle's digest is taken over. -/
def digestText (bundle : Bundle) : String :=
  bundle.projectId ++ "\x00" ++ bundle.workPackageId ++ "\x00" ++
    Go.itoa bundle.tokenBudget ++ "\n" ++
    String.join (bundle.sections.map fun part =>
      part.kind ++ "\x00" ++ part.id ++ "\x00" ++ Go.itoa part.tokens ++ "\x00" ++
        part.text ++ "\n")

/-- A deterministic bundle: inputs sorted by kind and id, included until the budget is
exhausted. -/
def compile (sha256Hex : String → String) (maxTokens : ℤ) (projectId workPackageId : String)
    (inputs : List Input) : Bundle :=
  let budget := if maxTokens ≤ 0 then defaultMaxTokens else maxTokens
  let (sections, used, truncated) := includeInputs budget 0 (inputs.insertionSort precedes)
  let bundle : Bundle :=
    { projectId := projectId
      workPackageId := workPackageId
      sections := sections
      tokenBudget := budget
      tokensUsed := used
      truncated := truncated }
  { bundle with digest := sha256Hex (digestText bundle) }

end Context

namespace Runtime

/-- Handed to an adapter for one attempt. -/
structure Request where
  assignmentId : String
  workPackageId : String
  contractId : String
  contractDigest : String
  contextDigest : String
  instructions : String := ""
  capabilities : List String

structure TestResult where
  name : String
  outcome : String
deriving DecidableEq

structure Artifact where
  id : String
  kind : String
  uri : String
deriving DecidableEq

structure Failure where
  failureClass : String
  message : String
  retryable : Bool := false
deriving DecidableEq

/-- The untrusted output of an attempt. -/
structure Result where
  status : String
  summary : String := ""
  tests : List TestResult := []
  artifacts : List Artifact := []
  failure : Option Failure := none
deriving DecidableEq

/-- What the disabled adapter returns. -/
def disabled : Result where
  status := "blocked"
  failure := some
    { failureClass := "execution_disabled", message := "execution is disabled" }

end Runtime

namespace Intake

inductive Sentinel where
  | conflict
deriving DecidableEq

instance : GoSentinel Sentinel where
  text
    | .conflict => "intake: result id reused with different content"

abbrev Error := GoError Sentinel

/-- A submitted result under its ids. -/
structure Result where
  id : String
  attemptId : String
  assignmentId : String
  workPackageId : String
  result : Runtime.Result

/-- The hashes of the accepted results, by id. -/
abbrev Service := GoMap String String

def statuses : List String := ["succeeded", "failed", "partial", "blocked", "cancelled"]

/-- Validates a result and records it; the flag reports whether it is new. The hash is taken
over the status, the summary, the tests and the artifacts. -/
def submit (hashResult : Runtime.Result → String) (seen : Service) (submitted : Result) :
    Except Error Bool × Service :=
  if submitted.id = "" ∨ submitted.attemptId = "" ∨ submitted.assignmentId = "" ∨
      submitted.workPackageId = "" then
    (.error (.plain "intake: id, attemptId, assignmentId, and workPackageId are required"), seen)
  else if submitted.result.status ∉ statuses then
    (.error (.plain ("intake: invalid status " ++ Go.quote submitted.result.status)), seen)
  else if (submitted.result.status = "failed" ∨ submitted.result.status = "blocked") ∧
      submitted.result.failure.isNone then
    (.error (.plain ("intake: status " ++ Go.quote submitted.result.status ++
      " requires a failure")), seen)
  else
    let hash := hashResult { submitted.result with failure := none }
    match seen.lookup submitted.id with
    | some existing =>
        if existing ≠ hash then (.error (.wrap .conflict submitted.id), seen)
        else (.ok false, seen)
    | none => (.ok true, seen.insert submitted.id hash)

end Intake

namespace Telemetry

/-- Bounded execution evidence for one attempt. -/
structure Record where
  attemptId : String
  assignmentId : String
  workPackageId : String
  outcome : String
  calls : ℤ := 0
  tokens : ℤ := 0
  costUSD : ℚ := 0
  durationMS : ℤ := 0

/-- A proposed piece of knowledge awaiting validation. -/
structure Candidate where
  kind : String
  level : String
  title : String
  content : String
  evidence : List String
  confidence : ℚ

/-- A nonnegative number with two decimals, the `%.2f` verb: ties go to the even digit. -/
def twoDecimals (value : ℚ) : String :=
  let scaled := value * 100
  let floor := scaled.num.toNat / scaled.den
  let rest := 2 * (scaled.num.toNat % scaled.den)
  let cents :=
    if rest < scaled.den ∨ rest = scaled.den ∧ floor % 2 = 0 then floor else floor + 1
  toString (cents / 100) ++ "." ++ toString (cents % 100 / 10) ++ toString (cents % 10)

def outcomeCandidates (record : Record) (failedTests : List String) : List Candidate :=
  if record.outcome = "succeeded" then
    [{ kind := "success"
       level := "task"
       title := "Work package " ++ record.workPackageId ++ " succeeded"
       content := "Succeeded with " ++ Go.itoa record.calls ++ " calls and " ++
         Go.itoa record.tokens ++ " tokens"
       evidence := [record.attemptId]
       confidence := 3 / 5 }]
  else if record.outcome = "failed" then
    if failedTests ≠ [] then
      [{ kind := "pitfall"
         level := "project"
         title := "Failure in " ++ record.workPackageId
         content := "Tests failed: " ++ Go.join ", " (Go.sortStrings failedTests)
         evidence := [record.attemptId]
         confidence := 1 / 2 }]
    else
      [{ kind := "failure"
         level := "project"
         title := "Failure in " ++ record.workPackageId
         content := "Attempt failed without test detail"
         evidence := [record.attemptId]
         confidence := 2 / 5 }]
  else []

def costCandidates (record : Record) : List Candidate :=
  if record.costUSD ≥ 1 then
    [{ kind := "cost"
       level := "project"
       title := "High cost for " ++ record.workPackageId
       content := "Cost " ++ twoDecimals record.costUSD ++ " USD exceeded the 1.00 USD threshold"
       evidence := [record.attemptId]
       confidence := 1 / 2 }]
  else []

/-- Deterministic learning candidates, by kind and title. -/
def derive (record : Record) (failedTests : List String) : List Candidate :=
  (outcomeCandidates record failedTests ++ costCandidates record).insertionSort
    fun left right => left.kind < right.kind ∨ left.kind = right.kind ∧ left.title ≤ right.title

end Telemetry

end Aa.Kernel
