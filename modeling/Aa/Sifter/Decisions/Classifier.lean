import Aa.Library.Regex

/-!
# Decision levels and their classification

A proposal is classified by the patterns it matches: critical, major and significant
signals, and otherwise routine. A conflict with a standing rule raises the level to
major at least; nothing lowers it.
-/

namespace Aa.Sifter

open Aa.Library

inductive DecisionLevel
  | routine
  | significant
  | major
  | critical
  deriving DecidableEq

namespace DecisionLevel

def value : DecisionLevel → String
  | routine => "routine"
  | significant => "significant"
  | major => "major"
  | critical => "critical"

def severity : DecisionLevel → ℕ
  | routine => 0
  | significant => 1
  | major => 2
  | critical => 3

/-- `level_at_least(level, floor)`. -/
def atLeast (level floor : DecisionLevel) : Bool :=
  floor.severity ≤ level.severity

/-- The most severe of some levels, `routine` if there are none. -/
def maxLevel (levels : List DecisionLevel) : DecisionLevel :=
  levels.foldl (fun result level => if result.severity < level.severity then level else result)
    routine

end DecisionLevel

/-- The fields of `DecisionSignals`. -/
inductive Signal
  | architectureChange
  | frameworkChange
  | databaseChange
  | persistenceChange
  | authChange
  | newExternalService
  | providerChange
  | apiIncompatible
  | schemaMigration
  | securityBoundary
  | deploymentChange
  | scopeExpansion
  | removeFunctionality
  | newMajorDependency
  | destructive
  | dataDeletion
  | irreversible
  | credentialChange
  | productionAction
  | largeExpenditure
  | confidentialExposure
  | securityControlRemoval
  | crossFile
  | minorDependency
  | refactor
  | migrationRequired
  deriving DecidableEq

def Signal.name : Signal → String
  | .architectureChange => "architecture_change"
  | .frameworkChange => "framework_change"
  | .databaseChange => "database_change"
  | .persistenceChange => "persistence_change"
  | .authChange => "auth_change"
  | .newExternalService => "new_external_service"
  | .providerChange => "provider_change"
  | .apiIncompatible => "api_incompatible"
  | .schemaMigration => "schema_migration"
  | .securityBoundary => "security_boundary"
  | .deploymentChange => "deployment_change"
  | .scopeExpansion => "scope_expansion"
  | .removeFunctionality => "remove_functionality"
  | .newMajorDependency => "new_major_dependency"
  | .destructive => "destructive"
  | .dataDeletion => "data_deletion"
  | .irreversible => "irreversible"
  | .credentialChange => "credential_change"
  | .productionAction => "production_action"
  | .largeExpenditure => "large_expenditure"
  | .confidentialExposure => "confidential_exposure"
  | .securityControlRemoval => "security_control_removal"
  | .crossFile => "cross_file"
  | .minorDependency => "minor_dependency"
  | .refactor => "refactor"
  | .migrationRequired => "migration_required"

/-- All signals in the order of the fields. -/
def Signal.all : List Signal :=
  [.architectureChange, .frameworkChange, .databaseChange, .persistenceChange, .authChange,
    .newExternalService, .providerChange, .apiIncompatible, .schemaMigration, .securityBoundary,
    .deploymentChange, .scopeExpansion, .removeFunctionality, .newMajorDependency, .destructive,
    .dataDeletion, .irreversible, .credentialChange, .productionAction, .largeExpenditure,
    .confidentialExposure, .securityControlRemoval, .crossFile, .minorDependency, .refactor,
    .migrationRequired]

abbrev DecisionSignals := Signal → Bool

/-- The names of the signals that are set. -/
def DecisionSignals.names (signals : DecisionSignals) : List String :=
  (Signal.all.filter signals).map Signal.name

structure DecisionClassification where
  level : DecisionLevel
  signals : DecisionSignals
  reasons : List String
  requiresHumanApproval : Bool
  modelAssisted : Bool
  conflictsWithRules : List String

def DecisionClassification.isMajor (classification : DecisionClassification) : Bool :=
  classification.level.atLeast .major

def criticalPatterns : List (Signal × List String) :=
  [(.destructive,
      ["\\bdrop\\s+(table|database|schema|column)\\b",
        "\\btruncate\\b",
        "\\bdelete\\s+from\\b",
        "\\brm\\s+-rf\\b",
        "\\bdestroy\\b",
        "\\bwipe\\b",
        "\\bpurge\\b(?!\\s+cache)",
        "\\breset\\s+--hard\\b",
        "\\bforce[- ]push\\b"]),
    (.dataDeletion,
      ["\\bdelete\\s+(all|every|the)\\b.*\\b(data|records|rows|users|database)\\b",
        "\\berase\\b.*\\b(data|records|history)\\b",
        "\\bremove\\s+all\\s+(data|records|users)\\b"]),
    (.irreversible,
      ["\\birreversible\\b",
        "\\bcannot be undone\\b",
        "\\bcan't be undone\\b",
        "\\bno rollback\\b",
        "\\bunrecoverable\\b",
        "\\bpermanent(ly)?\\s+(delete|remove|migrat)"]),
    (.credentialChange,
      ["\\brotate\\s+(credentials|keys|secrets)\\b",
        "\\bcredential\\s+model\\b",
        "\\bapi\\s+key(s)?\\b",
        "\\bprivate\\s+key\\b",
        "\\bsecret(s)?\\b.*\\b(config|store|rotate)\\b"]),
    (.productionAction,
      ["\\bproduction\\b",
        "\\bprod\\s+(environment|server|deploy|database)\\b",
        "\\blive\\s+(system|traffic|users)\\b"]),
    (.largeExpenditure,
      ["\\bbudget\\s+increase\\b",
        "\\blarge\\s+(unexpected\\s+)?(cost|expenditure|spend)",
        "\\bspend\\s+\\$?\\d\x7b3,\x7d",
        "\\bcost\\s+spike\\b"]),
    (.confidentialExposure,
      ["\\bexpose\\s+(confidential|secrets|private)",
        "\\bupload\\b.*\\b(externally|to\\s+the\\s+cloud|third[- ]party)\\b",
        "\\bsend\\b.*\\b(secrets|credentials|keys)\\b",
        "\\bleak\\b"]),
    (.securityControlRemoval,
      ["\\bdisable\\s+(auth|authentication|authorization|tls|ssl|https|security)\\b",
        "\\bremove\\s+(auth|authentication|authorization|security)\\b",
        "\\bbypass\\s+(auth|security|authentication)\\b",
        "\\b(no|without)\\s+authentication\\b"])]

def majorPatterns : List (Signal × List String) :=
  [(.architectureChange,
      ["\\barchitectur(e|al)\\b",
        "\\bmicro[- ]?service",
        "\\bmonolith",
        "\\bre[- ]?architect\\b",
        "\\bsystem\\s+design\\b"]),
    (.frameworkChange,
      ["\\b(change|switch|replace|migrate|adopt)\\b.*\\bframework\\b",
        "\\bnew\\s+framework\\b",
        "\\b(react|vue|angular|svelte|next\\.?js|django|rails|laravel)\\b"]),
    (.databaseChange,
      ["\\b(changing|change|switch|replace|swap|migrate\\s+to)\\b.*\\b(database|db)\\b",
        "\\b(database|db)\\s+technology\\b",
        "\\b(postgres|postgresql|mysql|mariadb|mongodb|oracle|dynamodb)\\b",
        "\\blarge\\s+database\\s+migration\\b",
        "\\bschema\\s+redesign\\b",
        "\\bmajor\\s+schema\\b"]),
    (.persistenceChange,
      ["\\bpersistence\\s+(architecture|layer|strategy|design)\\b",
        "\\bre[- ]?design\\b.*\\bpersistence\\b",
        "\\breplace\\b.*\\b(sqlite|persistence|storage\\s+layer)\\b",
        "\\bstorage\\s+architecture\\b"]),
    (.authChange,
      ["\\boauth\\b",
        "\\boidc\\b",
        "\\bsaml\\b",
        "\\bsso\\b",
        "\\bauth(entication)?\\s+(architecture|provider|system|strategy|model)\\b",
        "\\b(change|replace|switch|redesign|rework)\\b.*\\bauth(entication|orization)?\\b",
        "\\bauth(entication|orization)?\\b.*\\b(architecture|provider|strategy)\\b"]),
    (.newExternalService,
      ["\\bnew\\s+(external|third[- ]party|major)\\s+(service|provider|api|vendor)\\b",
        "\\bintroduc(e|ing)\\b.*\\b(service|vendor|provider)\\b",
        "\\b(stripe|twilio|sendgrid|auth0|okta|datadog|sentry)\\b"]),
    (.providerChange,
      ["\\b(cloud|model|inference|llm)\\s+provider\\b",
        "\\bprovider\\s+(layer|strategy|change|switch)\\b",
        "\\breplace\\s+(ollama|openai|anthropic|deepseek)\\b",
        "\\bswitch\\s+(to\\s+)?(openai|anthropic|deepseek|bedrock|azure)\\b"]),
    (.apiIncompatible,
      ["\\bbreaking\\s+(change|api)\\b",
        "\\bbackward(s)?[- ]incompatible\\b",
        "\\bpublic\\s+api\\b.*\\b(change|break)\\b",
        "\\bchange\\s+the\\s+public\\s+api\\b"]),
    (.schemaMigration,
      ["\\b(schema|data)\\s+migration\\b",
        "\\bmigrate\\s+(the\\s+)?(schema|database)\\b",
        "\\bschema\\s+(change|version)\\b"]),
    (.securityBoundary,
      ["\\bsecurity\\s+(boundary|boundaries|model|posture)\\b",
        "\\btrust\\s+boundary\\b",
        "\\bpermission\\s+model\\b"]),
    (.deploymentChange,
      ["\\bdeployment\\s+architecture\\b",
        "\\bkubernetes\\b",
        "\\bk8s\\b",
        "\\b(docker\\s+swarm|infrastructure|hosting\\s+provider)\\b",
        "\\bdeploy(ment)?\\s+(to|on)\\b.*\\b(cloud|aws|azure|gcp)\\b"]),
    (.scopeExpansion,
      ["\\bexpanding?\\s+(the\\s+)?scope\\b",
        "\\bmajor\\s+scope\\b",
        "\\bsubstantially\\s+(expand|increase)\\b",
        "\\bnew\\s+major\\s+(feature|capability|component)\\b"]),
    (.removeFunctionality,
      ["\\bremove\\s+(major|core|existing)\\s+(functionality|feature|module)\\b",
        "\\bdelete\\s+(the\\s+)?(feature|module|subsystem)\\b"]),
    (.newMajorDependency,
      ["\\bmajor\\s+(third[- ]party\\s+)?(dependency|library|package)\\b",
        "\\badd\\s+(a\\s+)?(major|new\\s+foundational)\\s+(dependency|framework)\\b"])]

def significantPatterns : List (Signal × List String) :=
  [(.refactor,
      ["\\brefactor\\b",
        "\\brestructure\\b",
        "\\bmoderate\\s+refactor\\b"]),
    (.crossFile,
      ["\\b(several|multiple|many)\\s+(related\\s+)?files\\b",
        "\\bacross\\s+files\\b",
        "\\bmultiple\\s+modules\\b"]),
    (.minorDependency,
      ["\\bminor\\s+dependency\\b",
        "\\badd\\s+(a\\s+)?(small|minor)\\s+(dependency|library|package)\\b"]),
    (.migrationRequired,
      ["\\bmigration\\b"])]

/-- Whether one of the patterns is found in a text, blind to case. -/
def search (unicode : PyUnicode) (patterns : List String) (text : String) : Bool :=
  patterns.any fun pattern =>
    match Regex.compile { ignoreCase := true } pattern with
    | some regex => regex.found unicode text.toList
    | none => false

/-- A pattern that needs a character the text does not have may be left out of the search. -/
theorem search_cons_of_needsOther {unicode : PyUnicode} {alphabet pattern : List Char}
    {patterns : List String} {text : String} (within : ∀ c ∈ text.toList, c ∈ alphabet)
    (needs : Regex.needsOther { ignoreCase := true } alphabet pattern)
    (notLater : search unicode patterns text = false) :
    search unicode (String.ofList pattern :: patterns) text = false := by
  simp only [search, List.any_cons, Regex.compile_ofList]
  rw [Bool.or_eq_false_iff]
  refine ⟨?_, notLater⟩
  simp only [Regex.needsOther] at needs
  cases isCompiled : Regex.compileChars { ignoreCase := true } pattern with
  | none => rfl
  | some regex =>
      simp only [isCompiled, Option.map_some, Option.getD_some] at needs
      exact Regex.found_of_blocked needs within

def criticalSignals : List Signal :=
  [.destructive, .dataDeletion, .irreversible, .credentialChange, .productionAction,
    .largeExpenditure, .confidentialExposure, .securityControlRemoval]

def majorSignals : List Signal :=
  [.architectureChange, .frameworkChange, .databaseChange, .persistenceChange, .authChange,
    .newExternalService, .providerChange, .apiIncompatible, .schemaMigration, .securityBoundary,
    .deploymentChange, .scopeExpansion, .removeFunctionality, .newMajorDependency]

def significantSignals : List Signal :=
  [.refactor, .crossFile, .minorDependency, .migrationRequired]

namespace DecisionClassifier

def detectSignals (unicode : PyUnicode) (text : String) : DecisionSignals := fun signal =>
  (criticalPatterns ++ majorPatterns ++ significantPatterns).any fun entry =>
    entry.1 = signal && search unicode entry.2 text

def levelForSignals (signals : DecisionSignals) : DecisionLevel :=
  if criticalSignals.any signals then .critical
  else if majorSignals.any signals then .major
  else if significantSignals.any signals then .significant
  else .routine

/-- A text without any of the signals is routine. -/
theorem levelForSignals_routine {unicode : PyUnicode} {text : String}
    (noSignals : ∀ entry ∈ criticalPatterns ++ majorPatterns ++ significantPatterns,
      search unicode entry.2 text = false) :
    levelForSignals (detectSignals unicode text) = .routine := by
  have isNone : detectSignals unicode text = fun _ => false := by
    funext signal
    simp only [detectSignals, List.any_eq_false]
    intro entry isEntry
    simp [noSignals entry isEntry]
  simp [isNone, levelForSignals]

/-- Each signal needs a letter besides these. -/
theorem levelForSignals_of_letters {unicode : PyUnicode} {text : String}
    (within : ∀ c ∈ text.toList, c ∈ ['j', 'w', 't', 'x']) :
    levelForSignals (detectSignals unicode text) = .routine := by
  refine levelForSignals_routine ?_
  simp only [criticalPatterns, majorPatterns, significantPatterns, List.cons_append,
    List.nil_append, List.forall_mem_cons, List.not_mem_nil, false_implies, implies_true, and_true]
  refine ⟨?_, ?_, ?_, ?_, ?_, ?_, ?_, ?_, ?_, ?_, ?_, ?_, ?_, ?_, ?_, ?_, ?_, ?_, ?_, ?_, ?_, ?_,
    ?_, ?_, ?_, ?_⟩
  all_goals
    repeat refine search_cons_of_needsOther within (by decide +kernel) ?_
    exact rfl

def classify (unicode : PyUnicode) (text : String) (ruleConflicts : List String)
    (modelLevel : Option DecisionLevel := none) (modelReason : Option String := none) :
    DecisionClassification :=
  let signals := detectSignals unicode text
  let triggered := signals.names
  let signalReasons :=
    if triggered.isEmpty then [] else ["deterministic signals: " ++ Py.join ", " triggered]
  let fromSignals := levelForSignals signals
  let modelReasons := match modelLevel with
    | none => []
    | some suggested =>
        [s!"model assessment suggested {suggested.value}" ++
          (match modelReason with
            | none => ""
            | some reason => if reason = "" then "" else s!" ({reason})")]
  let fromModel := match modelLevel with
    | none => fromSignals
    | some suggested => DecisionLevel.maxLevel [fromSignals, suggested]
  let level :=
    if ruleConflicts.isEmpty then fromModel else DecisionLevel.maxLevel [fromModel, .major]
  let ruleReasons :=
    if ruleConflicts.isEmpty then []
    else ["conflicts with standing rule(s): " ++ Py.join "; " ruleConflicts]
  let levelReasons :=
    if level.atLeast .major then []
    else ["routine or significant; autonomous execution permitted by default"]
  { level := level
    signals := signals
    reasons := signalReasons ++ modelReasons ++ ruleReasons ++ levelReasons
    requiresHumanApproval := level.atLeast .major
    modelAssisted := modelLevel.isSome
    conflictsWithRules := ruleConflicts }

end DecisionClassifier

end Aa.Sifter
