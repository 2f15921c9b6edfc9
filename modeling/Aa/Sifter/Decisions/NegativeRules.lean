import Aa.Sifter.Decisions.Policy

/-!
# Negative standing rules

A rule forbids the alternatives to the technologies its text names, whatever words frame it: the
terms of "Never use redis." are the technologies that a proposal may mention. What is reported of
a mention is therefore what the proposal mentions besides.
-/

namespace Aa.Sifter

open Aa.Library

/-- The words that frame a negative rule. -/
def negativeFraming : String := "\\b(never|do\\s+not|don't|forbid)\\b"

/-- Whether a text is framed as a negative rule. -/
def negativelyFramed (unicode : PyUnicode) (text : String) : Bool :=
  match Regex.compile { ignoreCase := true } negativeFraming with
  | some regex => regex.found unicode text.toList
  | none => false

/-- A conflict makes the decision at least a major one. -/
theorem DecisionClassifier.classify_conflict {unicode : PyUnicode} {text : String}
    {ruleConflicts : List String} (conflicts : ruleConflicts ≠ [])
    (modelLevel : Option DecisionLevel) (modelReason : Option String) :
    (DecisionClassifier.classify unicode text ruleConflicts modelLevel
      modelReason).level.atLeast .major := by
  have raised (level : DecisionLevel) : (DecisionLevel.maxLevel [level, .major]).atLeast .major := by
    cases level <;> decide
  simp only [DecisionClassifier.classify, List.isEmpty_eq_false_iff.mpr conflicts,
    Bool.false_eq_true, if_false]
  exact raised _

/-! ## Families -/

/-- No technology is of two families. -/
theorem familyFor_eq_some {family : String × List String} (isFamily : family ∈ techFamilies)
    {term : String} : familyFor term = some family.1 ↔ term ∈ family.2 := by
  have first : ∀ family ∈ techFamilies, ∀ term ∈ family.2, familyFor term = some family.1 := by
    decide +kernel
  have distinct : (techFamilies.map (·.1)).Nodup := by decide +kernel
  refine ⟨fun isFirst => ?_, first family isFamily term⟩
  obtain ⟨other, found, sameName⟩ := Option.map_eq_some_iff.mp isFirst
  have same : other = family :=
    List.inj_on_of_nodup_map distinct (List.mem_of_find?_eq_some found) isFamily sameName
  simpa [same] using List.find?_some found

namespace StandingRule

/-- A lowercased proposal mentions a technology that is no term of the rule and that is of the
family of one. -/
def Alternative (rule : StandingRule) (lower : String) : Prop :=
  ∃ family ∈ techFamilies, (∃ term ∈ family.2, term ∈ rule.forbidTerms) ∧
    ∃ candidate ∈ family.2, Py.contains lower candidate = true ∧ candidate ∉ rule.forbidTerms

theorem conflicts_iff {rule : StandingRule} {lower : String} :
    rule.conflicts lower = true ↔ rule.Alternative lower := by
  simp only [conflicts, List.any_eq_true, Bool.and_eq_true, Bool.not_eq_true',
    List.contains_eq_mem, decide_eq_true_eq, decide_eq_false_iff_not, List.mem_filter,
    List.mem_filterMap]
  refine exists_congr fun family => and_congr_right fun isFamily => and_congr ?_ ?_
  · refine exists_congr fun term => ?_
    rw [familyFor_eq_some isFamily, and_comm]
  · refine exists_congr fun candidate => and_congr_right fun isCandidate => and_congr_right fun _ => ?_
    simp [(familyFor_eq_some isFamily).mpr isCandidate]

end StandingRule

/-- The technologies derived from a text are those it mentions, if it is framed at all. -/
theorem mem_derived {unicode : PyUnicode} {text term : String}
    (isDerived : term ∈ (deriveRuleMetadata unicode text).1) (other : String) :
    other ∈ (deriveRuleMetadata unicode text).1 ↔
      (∃ family ∈ techFamilies, other ∈ family.2) ∧
        Py.contains (unicode.lowered text) other = true := by
  simp only [deriveRuleMetadata, List.mem_insertionSort, List.mem_dedup] at isDerived ⊢
  cases compiled : Regex.compile { ignoreCase := true } approvalFraming with
  | none => simp [compiled] at isDerived
  | some regex =>
      simp only [compiled] at isDerived ⊢
      split at isDerived
      · rename_i framed
        rw [if_pos framed, List.mem_filter, List.mem_flatMap]
      · cases isDerived

namespace StandingRuleEngine

variable {engine : StandingRuleEngine} {rule : StandingRule} {proposal : String}

/-- The proposal mentions what an active negative rule forbids. -/
structure Violates (engine : StandingRuleEngine) (proposal : String) (rule : StandingRule) :
    Prop where
  isRule : rule ∈ engine.rules
  active : rule.active = true
  negative : negativelyFramed engine.unicode rule.text = true
  mentions : ∃ term ∈ (deriveRuleMetadata engine.unicode rule.text).1,
    Py.contains (engine.unicode.lowered proposal) term = true

/-- The rule is reported, and every classification that reads the report is major at least. -/
structure Reports (engine : StandingRuleEngine) (proposal : String) (rule : StandingRule) :
    Prop where
  reported : rule.text ∈ engine.detectConflicts proposal
  severe : ∀ text modelLevel modelReason,
    (DecisionClassifier.classify engine.unicode text (engine.detectConflicts proposal) modelLevel
      modelReason).level.atLeast .major = true

/-- A rule is reported for what a proposal mentions besides the terms of a rule of that text. -/
theorem reports_iff : engine.Reports proposal rule ↔
    ∃ other ∈ engine.rules, other.active = true ∧ other.text = rule.text ∧
      other.Alternative (engine.unicode.lowered proposal) := by
  have reported : rule.text ∈ engine.detectConflicts proposal ↔
      ∃ other ∈ engine.rules, other.active = true ∧ other.text = rule.text ∧
        other.Alternative (engine.unicode.lowered proposal) := by
    simp only [detectConflicts, List.mem_map, List.mem_filter, Bool.and_eq_true,
      StandingRule.conflicts_iff]
    refine exists_congr fun other => ?_
    tauto
  rw [← reported]
  refine ⟨fun reports => reports.reported, fun isReported => ⟨isReported, fun text => ?_⟩⟩
  exact DecisionClassifier.classify_conflict (List.ne_nil_of_mem isReported)

/-- The terms of every rule are those of its text. -/
def Derived (engine : StandingRuleEngine) : Prop :=
  ∀ rule ∈ engine.rules, rule.forbidTerms = (deriveRuleMetadata engine.unicode rule.text).1

/-- A proposal mentions a technology that a text does not, of the family of one that it does. -/
def Departs (engine : StandingRuleEngine) (text proposal : String) : Prop :=
  ∃ family ∈ techFamilies,
    (∃ term ∈ family.2, Py.contains (engine.unicode.lowered text) term = true) ∧
      ∃ candidate ∈ family.2, Py.contains (engine.unicode.lowered proposal) candidate = true ∧
        Py.contains (engine.unicode.lowered text) candidate = false

/-- For a rule whose terms are derived, only the two texts count. -/
theorem alternative_iff (derived : engine.Derived) (violates : engine.Violates proposal rule)
    {other : StandingRule} (isRule : other ∈ engine.rules) (sameText : other.text = rule.text) :
    other.Alternative (engine.unicode.lowered proposal) ↔ engine.Departs rule.text proposal := by
  obtain ⟨mentioned, isDerived, _⟩ := violates.mentions
  have isTerm {family : String × List String} (isFamily : family ∈ techFamilies) {term : String}
      (ofFamily : term ∈ family.2) : term ∈ other.forbidTerms ↔
        Py.contains (engine.unicode.lowered rule.text) term = true := by
    rw [derived other isRule, sameText, mem_derived isDerived]
    exact and_iff_right ⟨family, isFamily, ofFamily⟩
  refine exists_congr fun family => and_congr_right fun isFamily => and_congr ?_ ?_
  · exact exists_congr fun term => and_congr_right fun ofFamily => isTerm isFamily ofFamily
  · refine exists_congr fun candidate => and_congr_right fun ofFamily => and_congr_right fun _ => ?_
    rw [isTerm isFamily ofFamily, Bool.not_eq_true]

/-- A mention of what a negative rule forbids is reported exactly if the proposal also mentions
an alternative; among rules with derived terms, a technology that the rule's text leaves out. -/
theorem negativeRule_enforced_iff (engine : StandingRuleEngine) (proposal : String)
    (rule : StandingRule) :
    ((engine.Violates proposal rule → engine.Reports proposal rule) ↔
      (engine.Violates proposal rule → ∃ other ∈ engine.rules, other.active = true ∧
        other.text = rule.text ∧ other.Alternative (engine.unicode.lowered proposal))) ∧
    (engine.Derived →
      ((engine.Violates proposal rule → engine.Reports proposal rule) ↔
        (engine.Violates proposal rule → engine.Departs rule.text proposal))) := by
  refine ⟨imp_congr_right fun _ => reports_iff, fun derived => imp_congr_right fun violates => ?_⟩
  rw [reports_iff]
  constructor
  · rintro ⟨other, isRule, _, sameText, alternative⟩
    exact (alternative_iff derived violates isRule sameText).mp alternative
  · intro departs
    exact ⟨rule, violates.isRule, violates.active, rfl,
      (alternative_iff derived violates violates.isRule rfl).mpr departs⟩

/-- The rules of a project that never wants Redis. -/
def neverRedis : StandingRuleEngine where
  unicode := .ascii
  rules := [{ text := "Never use redis.", forbidTerms := ["redis"] }]

/-- "use redis" is not reported to the project that never wants it. -/
theorem neverRedis_silent :
    neverRedis.Violates "use redis" { text := "Never use redis.", forbidTerms := ["redis"] } ∧
      (deriveRuleMetadata .ascii "Never use redis.").1 = ["redis"] ∧
      neverRedis.detectConflicts "use redis" = [] := by
  have derived : (deriveRuleMetadata .ascii "Never use redis.").1 = ["redis"] := by decide +kernel
  refine ⟨⟨List.mem_singleton_self _, rfl, by decide +kernel, "redis", ?_, by decide +kernel⟩,
    derived, by decide +kernel⟩
  exact derived ▸ List.mem_singleton_self "redis"

end StandingRuleEngine

end Aa.Sifter
