import Mathlib
import Aa.Sifter.Decisions.Classifier

/-!
# Standing rules

Constraints the human has set for good. A rule forbids the alternatives to the
technologies it names, may grant autonomy, and may waive approval of costs under an
amount.
-/

namespace Aa.Sifter

open Aa.Library

/-- The technologies of each family. -/
def techFamilies : List (String × List String) :=
  [("persistence",
      ["sqlite", "postgres", "postgresql", "mysql", "mariadb", "mongodb", "dynamodb", "oracle",
        "redis", "filesystem"]),
    ("frontend", ["react", "vue", "svelte", "angular", "next.js", "nextjs", "solid"]),
    ("backend", ["django", "fastapi", "flask", "rails", "laravel", "express", "nestjs"]),
    ("auth",
      ["oauth", "oidc", "saml", "sso", "jwt", "session", "basic auth", "auth", "authentication"]),
    ("provider", ["ollama", "openai", "anthropic", "deepseek", "bedrock", "azure openai"]),
    ("deployment",
      ["kubernetes", "k8s", "docker", "ecs", "lambda", "serverless", "bare metal"])]

def knownGrants : List (String × List String) :=
  [("cloud_debug_failed_tests",
      ["debug\\s+(failed\\s+)?tests\\s+automatically", "deepseek\\s+may\\s+debug"]),
    ("cloud_auto_escalation",
      ["automatically\\s+escalate", "may\\s+use\\s+cloud\\s+automatically"])]

def approvalFraming : String :=
  "\\b(approved|approve|use\\s+only|must\\s+use|stick\\s+with|do\\s+not|don't|never|no\\s+other|forbid)\\b"

structure StandingRule where
  text : String
  forbidTerms : List String := []
  grants : List String := []
  active : Bool := true

/-- The family of a technology. -/
def familyFor (term : String) : Option String :=
  (techFamilies.find? fun family => family.2.contains term).map (·.1)

/-- The terms a rule's text forbids the alternatives of, and the grants it gives. -/
def deriveRuleMetadata (unicode : PyUnicode) (text : String) : List String × List String :=
  let lower := unicode.lowered text
  let framed := match Regex.compile { ignoreCase := true } approvalFraming with
    | some regex => regex.found unicode text.toList
    | none => false
  let forbid :=
    if framed then (techFamilies.flatMap (·.2)).filter (Py.contains lower ·) else []
  let granted := (knownGrants.filter fun grant =>
    grant.2.any fun pattern =>
      match Regex.compile {} pattern with
      | some regex => regex.found unicode lower.toList
      | none => false).map (·.1)
  (forbid.dedup.insertionSort (· ≤ ·), granted.dedup.insertionSort (· ≤ ·))

namespace StandingRule

/-- Whether a lowercased proposal mentions an alternative to what the rule allows. -/
def conflicts (rule : StandingRule) (lower : String) : Bool :=
  let allowed := rule.forbidTerms.filter fun term => (familyFor term).isSome
  let families := rule.forbidTerms.filterMap familyFor
  techFamilies.any fun family =>
    families.contains family.1 && family.2.any fun candidate =>
      Py.contains lower candidate && !allowed.contains candidate

end StandingRule

/-- A decimal number `[0-9]+(\.[0-9]+)?` at the head of a text. -/
def readAmount (text : List Char) : Option ℚ :=
  let isDigit : Char → Bool := fun c => '0' ≤ c && c ≤ '9'
  let number (digits : List Char) : ℕ :=
    digits.foldl (fun value c => 10 * value + (c.toNat - '0'.toNat)) 0
  let whole := text.takeWhile isDigit
  let after := text.dropWhile isDigit
  let fraction := if after.head? = some '.' then after.tail.takeWhile isDigit else []
  if whole.isEmpty then none
  else some (number whole + number fraction / 10 ^ fraction.length)

/-- The first amount after a dollar sign. -/
def costWaiverAmount : List Char → Option ℚ
  | [] => none
  | c :: rest =>
      if c = '$' then
        match readAmount (rest.dropWhile Py.isSpace) with
        | some amount => some amount
        | none => costWaiverAmount rest
      else costWaiverAmount rest

/-- The rules in force and the Unicode database they are read with. -/
structure StandingRuleEngine where
  unicode : PyUnicode
  rules : List StandingRule := []

namespace StandingRuleEngine

variable (engine : StandingRuleEngine)

def detectConflicts (proposalText : String) : List String :=
  let lower := engine.unicode.lowered proposalText
  (engine.rules.filter fun rule => rule.active && rule.conflicts lower).map (·.text)

def hasGrant (grant : String) : Bool :=
  engine.rules.any fun rule => rule.active && rule.grants.contains grant

/-- The amount a rule waives approval under. -/
def waivedBy (rule : StandingRule) : Option ℚ :=
  let lower := engine.unicode.lowered rule.text
  if rule.active && Py.contains lower "under" &&
      (Py.contains lower "approval" || Py.contains lower "ask") then
    costWaiverAmount rule.text.toList
  else none

def costWaiverThreshold : Option ℚ :=
  engine.rules.foldl (fun threshold rule =>
    match engine.waivedBy rule with
    | some value => some (max (threshold.getD 0) value)
    | none => threshold) none

end StandingRuleEngine

end Aa.Sifter
