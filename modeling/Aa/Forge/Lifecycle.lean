import Aa.Library.Retry
import Aa.Contracts.Records
import Aa.Forge.Fake

/-!
# The phase lifecycle

A manager drives a phase over a forge: it starts the phase with a repository, a branch, a
milestone, a tracking issue and a draft pull request, and completes it with a checkpoint
and the merge. Issues and checkpoints are handed to memory, if the manager has one. The
rendering of the process templates is a parameter.
-/

namespace Aa.Forge

open Aa.Library Aa.Contracts

/-! ## Phases -/

/-- The state collected while driving a phase. -/
structure Phase where
  repo : Repository
  number : ℤ
  scope : String
  branch : String
  milestone : Milestone
  trackingIssue : Issue
  phasePR : PullRequest

/-- An issue that belongs to a phase. -/
structure ChildIssueSpec where
  title : String
  goal : String := ""
  requirements : List String := []
  acceptance : List String := []
  notes : String := ""
  type : String := ""

structure PhaseSpec where
  repository : Repository
  number : ℤ
  scope : String
  objective : String
  milestone : String

def isScopeChar (c : Char) : Bool := ('a' ≤ c && c ≤ 'z') || c.isDigit

/-- `scopeRE`. -/
def matchesScope (scope : String) : Bool :=
  (scope.toList.head?.any fun c => 'a' ≤ c && c ≤ 'z') &&
    (scope.toList.splitOn '-').all fun part => !part.isEmpty && part.all isScopeChar

def validateScope (scope : String) : Check :=
  if scope = "" then invalid "scope is required"
  else if matchesScope scope then .ok ()
  else invalid ("scope " ++ Go.quote scope ++ " must be lowercase kebab-case")

/-- The branch name of a phase. -/
def phaseBranch (phase : ℤ) (scope : String) : String := "ph" ++ Go.itoa phase ++ "-" ++ scope

def validatePhaseBranch (name : String) (phase : ℤ) (scope : String) : Check :=
  match validateScope scope with
  | .error error => .error error
  | .ok () =>
      if name ≠ phaseBranch phase scope then
        invalid ("phase branch " ++ Go.quote name ++ " must equal " ++
          Go.quote (phaseBranch phase scope))
      else .ok ()

def Phase.branchName (phase : Phase) : String := phaseBranch phase.number phase.scope

def titleCase (scope : String) : String :=
  Go.join " " ((scope.toList.splitOn '-').map fun part =>
    match part with
    | [] => ""
    | first :: rest => String.ofList (first.toUpper :: rest))

/-! ## Templates -/

/-- The data of the tracking issue template. -/
structure TrackingIssueData where
  number : ℤ
  objective : String
  scope : List String := []
  issues : List ℤ := []
  dependencies : String := ""
  risks : String := ""

/-- The data of the phase pull request template. -/
structure PhasePRData where
  objective : String
  trackingIssue : ℤ
  milestone : String
  features : List String := []
  infrastructure : List String := []
  testing : List String := []
  documentation : List String := []
  childPRs : List ℤ := []
  status : String := "Phase started."
  risks : String := ""

/-- The data of the template of a child issue. -/
structure FeatureIssueData where
  title : String
  goal : String
  requirements : List String
  acceptance : List String
  notes : String

inductive TemplateData where
  | trackingIssue (data : TrackingIssueData)
  | phasePR (data : PhasePRData)
  | featureIssue (data : FeatureIssueData)

/-- Renders a loaded template by name. -/
abbrev Engine := String → TemplateData → Except String String

/-! ## Synchronization with memory -/

/-- A time of the exporter's clock, in RFC 3339. -/
structure Stamp where
  text : String
  parses : GoTime.parsesRFC3339 text = true

/-- Deterministically maps forge objects to contracts. Writing a time in UTC and RFC 3339 is
a parameter. -/
structure Exporter where
  projectId : String
  source : String := "aa-forge"
  utc : Time → String

def mapIssueState (state : String) : Except Error String :=
  if state = "" ∨ state = "open" then .ok "open"
  else if state ∈ ["in_progress", "review", "closed", "deferred", "cancelled"] then .ok state
  else .error (.plain ("memsync: unknown issue state " ++ Go.quote state))

def defaultKind (kind fallback : String) : String := if kind = "" then fallback else kind

/-- The header of what is exported. -/
def Exporter.envelope (exporter : Exporter) (kind id : String) (stamp : Stamp) : V1.Envelope :=
  { contractVersion := V1.Version, kind := kind, id := id, projectId := exporter.projectId
    createdAt := stamp.text
    provenance := some
      { source := exporter.source, producedAt := stamp.text, confidence := "exact" } }

/-- Maps a forge issue to a contract issue. -/
def Exporter.issue (exporter : Exporter) (stamp : Stamp) (issue : Issue) : Except Error V1.Issue := do
  issue.validate
  let status ← mapIssueState issue.state
  let issueType := if issue.type = "" then "feature" else issue.type
  (V1.requireEnum "type" issueType
    ["feature", "user_story", "bug", "tech_debt", "refactor", "test", "documentation", "audit",
      "investigation", "deficiency"]).mapError .plain
  let out : V1.Issue :=
    { exporter.envelope "issue" issue.id stamp with
      title := issue.title
      type := issueType
      status := status
      body := issue.body
      milestone := issue.milestone
      forgeRef :=
        if issue.ref.id = "" then none
        else some { kind := defaultKind issue.ref.kind "issue", id := issue.ref.id } }
  out.validate.mapError fun message => .plain ("memsync: issue: " ++ message)
  return out

/-- Maps a forge checkpoint to a candidate memory record. -/
def Exporter.checkpointRecord (exporter : Exporter) (stamp : Stamp) (checkpoint : Checkpoint) :
    Except Error V1.MemoryRecord := do
  checkpoint.validate
  let created :=
    if checkpoint.createdAt = zeroTime then stamp.text else exporter.utc checkpoint.createdAt
  let record : V1.MemoryRecord :=
    { contractVersion := V1.Version, kind := "memory_record", id := "mem_" ++ checkpoint.id
      projectId := exporter.projectId
      createdAt := created
      provenance := some { source := exporter.source, producedAt := created, confidence := "exact" }
      level := "project"
      lifecycle := "CANDIDATE"
      title := "Checkpoint " ++ checkpoint.phase
      content :=
        { summary := "Phase " ++ checkpoint.phase ++ " checkpoint at " ++ checkpoint.commit }
      confidence := some 1
      evidence :=
        checkpoint.issues.map (fun ref => { kind := defaultKind ref.kind "issue", id := ref.id }) ++
        checkpoint.prs.map fun ref =>
          { kind := defaultKind ref.kind "pull_request", id := ref.id } }
  record.validate.mapError fun message => .plain ("memsync: checkpoint: " ++ message)
  return record

/-! ## The manager -/

/-- A phase over a forge. Without an exporter or without a sink nothing is synchronized. -/
structure Manager where
  templates : Option Engine := none
  exporter : Option Exporter := none
  hasSink : Bool := false

/-- What a call of the manager meets: failures injected into the forge before it, the error of
its context at each step, an error that is reported of a merge that took effect, the error of the
sink, and what the exporter's clock reads. -/
structure Faults where
  injected : List (String × ℤ × Error) := []
  repository : Option Error := none
  branch : Option Error := none
  milestone : Option Error := none
  issue : Option Error := none
  pull : Option Error := none
  checkpoint : Option Error := none
  update : Option Error := none
  merge : Option Error := none
  merged : Option Error := none
  sink : Option Error := none
  stamp : Stamp

/-- The forge, and the issues and records the sink has received. -/
structure World where
  forge : Fake
  received : List V1.Issue := []
  records : List V1.MemoryRecord := []

/-- The failures injected before a call. -/
def World.meanwhile (faults : Faults) (world : World) : World :=
  { world with
    forge := faults.injected.foldl
      (fun fake injection => fake.inject injection.1 injection.2.1 injection.2.2) world.forge }

/-- A call of the manager. -/
abbrev Drive := Attempt Faults World Error

/-- A step of the forge, under the error of its context. -/
def driveForge {α : Type} (cancelled : Faults → Option Error)
    (step : Fake → Option Error → Except Error α × Fake) : Drive α := fun faults world =>
  match step world.forge (cancelled faults) with
  | (result, fake) => (result, { world with forge := fake })

/-- A step that may be reported to have failed although it took effect. -/
def reported {α : Type} (failure : Faults → Option Error) (call : Drive α) : Drive α :=
  fun faults world =>
    match call faults world, failure faults with
    | (.ok _, after), some error => (.error error, after)
    | ends, _ => ends

/-- A step whose errors are told under a heading. -/
def within {α : Type} (heading : String) (call : Drive α) : Drive α :=
  call.mapError (·.within heading)

namespace Manager

variable (manager : Manager)

def render (name : String) (data : TemplateData) : String :=
  match manager.templates with
  | none => ""
  | some engine =>
      match engine name data with
      | .error _ => ""
      | .ok out => out

def phasePRBody (spec : PhaseSpec) (issue : Issue) : String :=
  let body := manager.render "github/phase-pr.md"
    (.phasePR { objective := spec.objective, trackingIssue := issue.number
                milestone := spec.milestone })
  if body ≠ "" then body else issue.body

/-- Maps and delivers an issue to the sink. -/
def syncIssue (issue : Issue) : Drive Unit := fun faults world =>
  match manager.exporter, manager.hasSink with
  | some exporter, true =>
      match exporter.issue faults.stamp issue with
      | .error error => (.error (error.within "lifecycle: sync issue"), world)
      | .ok record =>
          match faults.sink with
          | some error => (.error (error.within "lifecycle: sync issue"), world)
          | none => (.ok (), { world with received := world.received ++ [record] })
  | _, _ => (.ok (), world)

/-- Creates the phase tracking issue. -/
def createTrackingIssue (repo : Repository) (spec : PhaseSpec) (milestoneId : String) :
    Drive Issue := do
  let body := manager.render "github/phase-tracking-issue.md"
    (.trackingIssue { number := spec.number, objective := spec.objective })
  let issue ← within "start phase: tracking issue" <|
    driveForge (·.issue) fun fake cancelled => fake.createIssue cancelled repo.id
      { title := "Phase " ++ Go.itoa spec.number ++ ": " ++ spec.objective
        body := body
        type := "feature"
        milestone := milestoneId }
  manager.syncIssue issue
  return issue

/-- Creates the phase branch, milestone, tracking issue, and draft pull request. -/
def startPhase (spec : PhaseSpec) : Drive Phase := do
  Attempt.check (validateScope spec.scope)
  let branch := phaseBranch spec.number spec.scope
  Attempt.check (validatePhaseBranch branch spec.number spec.scope)
  let repo ← within "start phase: repository" <|
    driveForge (·.repository) fun fake cancelled => fake.createRepository cancelled spec.repository
  let _ ← within "start phase: branch" <|
    driveForge (·.branch) fun fake cancelled => fake.createBranch cancelled repo.id { name := branch }
  let milestoneTitle :=
    if spec.milestone = "" then "Phase " ++ Go.itoa spec.number ++ " — " ++ titleCase spec.scope
    else spec.milestone
  let milestone ← within "start phase: milestone" <|
    driveForge (·.milestone) fun fake cancelled =>
      fake.createMilestone cancelled repo.id { title := milestoneTitle }
  let issue ← manager.createTrackingIssue repo spec milestone.id
  let pr ← within "start phase: phase PR" <|
    driveForge (·.pull) fun fake cancelled => fake.openPullRequest cancelled repo.id
      { title := "Phase " ++ Go.itoa spec.number ++ ": " ++ spec.objective
        body := manager.phasePRBody spec issue
        base := repo.defaultBranch
        head := branch
        draft := true }
  return { repo := repo, number := spec.number, scope := spec.scope, branch := branch
           milestone := milestone, trackingIssue := issue, phasePR := pr }

/-- Renders and creates a phase child issue, linked to the phase milestone. -/
def createChildIssue (phase : Phase) (spec : ChildIssueSpec) : Drive Issue := do
  let issueType := if spec.type = "" then "feature" else spec.type
  let body := manager.render "github/feature-issue.md"
    (.featureIssue { title := spec.title, goal := spec.goal, requirements := spec.requirements
                     acceptance := spec.acceptance, notes := spec.notes })
  let issue ← within "child issue" <|
    driveForge (·.issue) fun fake cancelled => fake.createIssue cancelled phase.repo.id
      { title := spec.title, body := body, type := issueType, milestone := phase.milestone.id }
  manager.syncIssue issue
  return issue

/-- Maps and delivers a checkpoint to the sink. -/
def syncCheckpoint (checkpoint : Checkpoint) : Drive Unit := fun faults world =>
  match manager.exporter, manager.hasSink with
  | some exporter, true =>
      match exporter.checkpointRecord faults.stamp checkpoint with
      | .error error => (.error (error.within "checkpoint: sync"), world)
      | .ok record =>
          match faults.sink with
          | some error => (.error (error.within "checkpoint: sync"), world)
          | none => (.ok (), { world with records := world.records ++ [record] })
  | _, _ => (.ok (), world)

/-- Records a phase checkpoint and syncs it to memory. -/
def checkpoint (phase : Phase) (commit : String) (issues prs : List Ref) : Drive Checkpoint := do
  let checkpoint ← within "checkpoint" <|
    driveForge (·.checkpoint) fun fake cancelled => fake.createCheckpoint cancelled phase.repo.id
      { phase := phase.branchName, commit := commit, issues := issues, prs := prs }
  manager.syncCheckpoint checkpoint
  return checkpoint

def refIssue (issue : Issue) : Ref :=
  { kind := defaultKind issue.ref.kind "issue", id := issue.ref.id }

def refPR (pr : PullRequest) : Ref :=
  { kind := defaultKind pr.ref.kind "pull_request", id := pr.ref.id }

/-- Marks the phase pull request ready and merges it through the human gate. -/
def completePhase (phase : Phase) (commit : String) (approval : MergeApproval) :
    Drive PullRequest := do
  if approval.actor = "" then
    Attempt.check (.error (.wrap .humanGate "merge actor is required"))
  else
    let _ ← manager.checkpoint phase commit [refIssue phase.trackingIssue] [refPR phase.phasePR]
    let ready ← driveForge (·.update) fun fake cancelled =>
      fake.updatePullRequest cancelled phase.repo.id
        { number := phase.phasePR.number, draft := false }
    reported (·.merged) <| driveForge (·.merge) fun fake cancelled =>
      fake.mergePullRequest cancelled phase.repo.id ready.number approval

end Manager

end Aa.Forge
