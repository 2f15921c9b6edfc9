import Aa.Contracts.V1
import Aa.Toolbox.Workflow.Decode

/-!
# Issues and strategies

The two contract objects that memory keeps typed repositories of: their fields, their
validators, and their JSON form.
-/

namespace Aa.Contracts.V1

open Aa.Library

/-- The contract version of this package. -/
def Version : String := "1.0"

/-- Ties an issue to work, commits, pull requests, and ADRs. -/
structure IssueLinks where
  workPackages : List String := []
  commits : List String := []
  pullRequests : List Reference := []
  adrs : List String := []

/-- A canonical issue, deficiency, or finding. -/
structure Issue extends Envelope where
  title : String := ""
  type : String := ""
  status : String := ""
  severity : String := ""
  body : String := ""
  milestone : String := ""
  forgeRef : Option Reference := none
  links : Option IssueLinks := none
  deferredTo : String := ""

/-- Scopes a memory record to roles, trades, or languages. -/
structure Applicability where
  roles : List String := []
  trades : List String := []
  languages : List String := []

/-- A validated, reusable approach. -/
structure Strategy extends Envelope where
  title : String := ""
  lifecycle : String := ""
  guidance : String := ""
  whenToUse : String := ""
  whenNotToUse : String := ""
  applicability : Option Applicability := none
  evidence : List Reference := []
  supersedes : String := ""

/-- The payload of a memory record. -/
structure MemoryContent where
  summary : String := ""
  details : String := ""
  tags : List String := []

/-- A knowledge record in the memory hierarchy. -/
structure MemoryRecord extends Envelope where
  level : String := ""
  lifecycle : String := ""
  title : String := ""
  content : MemoryContent := {}
  applicability : Option Applicability := none
  evidence : List Reference := []
  confidence : Option ℚ := none
  supersedes : String := ""

/-- `IssueState.Validate`. -/
def validateIssueState (status : String) : Check :=
  requireEnum "status" status ["open", "in_progress", "review", "closed", "deferred", "cancelled"]

/-- `MemoryLifecycle.Validate`. -/
def validateMemoryLifecycle (lifecycle : String) : Check :=
  requireEnum "lifecycle" lifecycle
    ["EPHEMERAL", "CANDIDATE", "VALIDATED", "ACTIVE", "SUPERSEDED", "ARCHIVED"]

def Issue.validate (issue : Issue) : Check := do
  if issue.kind ≠ "issue" then
    throw ("kind: expected \"issue\", got " ++ Go.quote issue.kind)
  issue.toEnvelope.validate
  if issue.title = "" then throw "title: is required"
  requireEnum "type" issue.type
    ["feature", "user_story", "bug", "tech_debt", "refactor",
      "test", "documentation", "audit", "investigation", "deficiency"]
  validateIssueState issue.status
  if issue.severity ≠ "" then
    requireEnum "severity" issue.severity ["P0", "P1", "P2", "P3", "none"]
  optionalIdentifier "deferredTo" issue.deferredTo

def Strategy.validate (strategy : Strategy) : Check := do
  if strategy.kind ≠ "strategy" then
    throw ("kind: expected \"strategy\", got " ++ Go.quote strategy.kind)
  strategy.toEnvelope.validate
  if strategy.title = "" then throw "title: is required"
  validateMemoryLifecycle strategy.lifecycle
  if strategy.guidance = "" then throw "guidance: is required"
  optionalIdentifier "supersedes" strategy.supersedes

def MemoryRecord.validate (record : MemoryRecord) : Check := do
  if record.kind ≠ "memory_record" then
    throw ("kind: expected \"memory_record\", got " ++ Go.quote record.kind)
  record.toEnvelope.validate
  requireEnum "level" record.level ["session", "task", "project", "role", "workforce"]
  validateMemoryLifecycle record.lifecycle
  if record.content.summary = "" then throw "content.summary: is required"
  if record.confidence.any fun confidence => confidence < 0 ∨ 1 < confidence then
    throw "confidence: must be between 0 and 1"
  optionalIdentifier "supersedes" record.supersedes

/-! ## JSON -/

/-- A string member. -/
def member (name value : String) : Json.Object := [(name, .str value)]

/-- A string member marked `omitempty`. -/
def optionalMember (name value : String) : Json.Object :=
  if value = "" then [] else member name value

/-- A slice member marked `omitempty`. -/
def listMember {α : Type} (name : String) (encode : α → Json) (items : List α) : Json.Object :=
  if items.isEmpty then [] else [(name, .arr (items.map encode))]

/-- A pointer member marked `omitempty`. -/
def pointerMember {α : Type} (name : String) (encode : α → Json) : Option α → Json.Object
  | none => []
  | some value => [(name, encode value)]

def Reference.toJson (reference : Reference) : Json :=
  .obj (member "kind" reference.kind ++ member "id" reference.id ++
    optionalMember "version" reference.version)

def Actor.toJson (actor : Actor) : Json :=
  .obj (member "kind" actor.kind ++ member "id" actor.id ++ optionalMember "role" actor.role ++
    optionalMember "trade" actor.trade ++ optionalMember "workerId" actor.workerId ++
    optionalMember "model" actor.model)

def Provenance.toJson (provenance : Provenance) : Json :=
  .obj (member "source" provenance.source ++ member "producedAt" provenance.producedAt ++
    pointerMember "producedBy" Actor.toJson provenance.producedBy ++
    optionalMember "confidence" provenance.confidence ++
    listMember "evidence" Reference.toJson provenance.evidence ++
    optionalMember "contentHash" provenance.contentHash)

def Envelope.members (envelope : Envelope) : Json.Object :=
  member "contractVersion" envelope.contractVersion ++ member "kind" envelope.kind ++
    member "id" envelope.id ++ optionalMember "projectId" envelope.projectId ++
    optionalMember "createdAt" envelope.createdAt ++
    pointerMember "revision" (fun revision : ℤ => .num revision) envelope.revision ++
    pointerMember "provenance" Provenance.toJson envelope.provenance

def IssueLinks.toJson (links : IssueLinks) : Json :=
  .obj (listMember "workPackages" Json.str links.workPackages ++
    listMember "commits" Json.str links.commits ++
    listMember "pullRequests" Reference.toJson links.pullRequests ++
    listMember "adrs" Json.str links.adrs)

def Issue.toJson (issue : Issue) : Json :=
  .obj (issue.toEnvelope.members ++ member "title" issue.title ++ member "type" issue.type ++
    member "status" issue.status ++ optionalMember "severity" issue.severity ++
    optionalMember "body" issue.body ++ optionalMember "milestone" issue.milestone ++
    pointerMember "forgeRef" Reference.toJson issue.forgeRef ++
    pointerMember "links" IssueLinks.toJson issue.links ++
    optionalMember "deferredTo" issue.deferredTo)

def Applicability.toJson (applicability : Applicability) : Json :=
  .obj (listMember "roles" Json.str applicability.roles ++
    listMember "trades" Json.str applicability.trades ++
    listMember "languages" Json.str applicability.languages)

def Strategy.toJson (strategy : Strategy) : Json :=
  .obj (strategy.toEnvelope.members ++ member "title" strategy.title ++
    member "lifecycle" strategy.lifecycle ++ member "guidance" strategy.guidance ++
    optionalMember "whenToUse" strategy.whenToUse ++
    optionalMember "whenNotToUse" strategy.whenNotToUse ++
    pointerMember "applicability" Applicability.toJson strategy.applicability ++
    listMember "evidence" Reference.toJson strategy.evidence ++
    optionalMember "supersedes" strategy.supersedes)

/-- The decoder of a string field. -/
def stringField {α : Type} (name : String) (read : α → String) (write : α → String → α) :
    String × GoJson.Decoder α :=
  GoJson.field name GoJson.string read write

/-- The decoder of a slice of strings. -/
def stringsField {α : Type} (name : String) (read : α → List String)
    (write : α → List String → α) : String × GoJson.Decoder α :=
  GoJson.field name (GoJson.slice "" GoJson.string) read write

/-- The fields an object that embeds the envelope takes over from it. -/
def envelopeFields {α : Type} (read : α → Envelope) (write : α → Envelope → α) :
    List (String × GoJson.Decoder α) :=
  [stringField "contractVersion" (fun target => (read target).contractVersion)
      (fun target value => write target { read target with contractVersion := value }),
    stringField "kind" (fun target => (read target).kind)
      (fun target value => write target { read target with kind := value }),
    stringField "id" (fun target => (read target).id)
      (fun target value => write target { read target with id := value }),
    stringField "projectId" (fun target => (read target).projectId)
      (fun target value => write target { read target with projectId := value }),
    stringField "createdAt" (fun target => (read target).createdAt)
      (fun target value => write target { read target with createdAt := value }),
    GoJson.field "revision" (GoJson.pointer 0 GoJson.int) (fun target => (read target).revision)
      (fun target value => write target { read target with revision := value }),
    GoJson.field "provenance" (GoJson.pointer {} Toolbox.Workflow.decodeProvenance)
      (fun target => (read target).provenance)
      (fun target value => write target { read target with provenance := value })]

def decodeIssueLinks : GoJson.Decoder IssueLinks :=
  GoJson.struct "v1.IssueLinks"
    [stringsField "workPackages" (·.workPackages)
        (fun target value => { target with workPackages := value }),
      stringsField "commits" (·.commits) (fun target value => { target with commits := value }),
      GoJson.field "pullRequests" (GoJson.slice {} Toolbox.Workflow.decodeReference)
        (·.pullRequests) (fun target value => { target with pullRequests := value }),
      stringsField "adrs" (·.adrs) (fun target value => { target with adrs := value })]

def decodeIssue : GoJson.Decoder Issue :=
  GoJson.struct "v1.Issue"
    (envelopeFields (·.toEnvelope) (fun target value => { target with toEnvelope := value }) ++
      [stringField "title" (·.title) (fun target value => { target with title := value }),
        stringField "type" (·.type) (fun target value => { target with type := value }),
        stringField "status" (·.status) (fun target value => { target with status := value }),
        stringField "severity" (·.severity) (fun target value => { target with severity := value }),
        stringField "body" (·.body) (fun target value => { target with body := value }),
        stringField "milestone" (·.milestone)
          (fun target value => { target with milestone := value }),
        GoJson.field "forgeRef" (GoJson.pointer {} Toolbox.Workflow.decodeReference) (·.forgeRef)
          (fun target value => { target with forgeRef := value }),
        GoJson.field "links" (GoJson.pointer {} decodeIssueLinks) (·.links)
          (fun target value => { target with links := value }),
        stringField "deferredTo" (·.deferredTo)
          (fun target value => { target with deferredTo := value })])

def decodeApplicability : GoJson.Decoder Applicability :=
  GoJson.struct "v1.Applicability"
    [stringsField "roles" (·.roles) (fun target value => { target with roles := value }),
      stringsField "trades" (·.trades) (fun target value => { target with trades := value }),
      stringsField "languages" (·.languages)
        (fun target value => { target with languages := value })]

def decodeStrategy : GoJson.Decoder Strategy :=
  GoJson.struct "v1.Strategy"
    (envelopeFields (·.toEnvelope) (fun target value => { target with toEnvelope := value }) ++
      [stringField "title" (·.title) (fun target value => { target with title := value }),
        stringField "lifecycle" (·.lifecycle)
          (fun target value => { target with lifecycle := value }),
        stringField "guidance" (·.guidance) (fun target value => { target with guidance := value }),
        stringField "whenToUse" (·.whenToUse)
          (fun target value => { target with whenToUse := value }),
        stringField "whenNotToUse" (·.whenNotToUse)
          (fun target value => { target with whenNotToUse := value }),
        GoJson.field "applicability" (GoJson.pointer {} decodeApplicability) (·.applicability)
          (fun target value => { target with applicability := value }),
        GoJson.field "evidence" (GoJson.slice {} Toolbox.Workflow.decodeReference) (·.evidence)
          (fun target value => { target with evidence := value }),
        stringField "supersedes" (·.supersedes)
          (fun target value => { target with supersedes := value })])

/-! ## What the members of an object say -/

/-- The names of the members an object with an envelope starts with. -/
def envelopeNames : List String :=
  ["contractVersion", "kind", "id", "projectId", "createdAt", "revision", "provenance"]

def Issue.names : List String :=
  envelopeNames ++ ["title", "type", "status", "severity", "body", "milestone", "forgeRef", "links",
    "deferredTo"]

def Strategy.names : List String :=
  envelopeNames ++ ["title", "lifecycle", "guidance", "whenToUse", "whenNotToUse", "applicability",
    "evidence", "supersedes"]

theorem sublist_optionalMember (name value : String) :
    ((optionalMember name value).map Prod.fst).Sublist [name] := by
  unfold optionalMember
  split
  · simp
  · simp [member]

theorem sublist_listMember {α : Type} (name : String) (encode : α → Json) (items : List α) :
    ((listMember name encode items).map Prod.fst).Sublist [name] := by
  unfold listMember
  split
  · simp
  · simp

theorem sublist_pointerMember {α : Type} (name : String) (encode : α → Json) (value : Option α) :
    ((pointerMember name encode value).map Prod.fst).Sublist [name] := by
  cases value with
  | none => simp [pointerMember]
  | some value => simp [pointerMember]

/-- Members under single names follow the order of the names. -/
theorem sublist_append {first second : Json.Object} {names : List String} {name : String}
    (firstSublist : (first.map Prod.fst).Sublist names)
    (secondSublist : (second.map Prod.fst).Sublist [name]) :
    ((first ++ second).map Prod.fst).Sublist (names ++ [name]) := by
  rw [List.map_append]
  exact firstSublist.append secondSublist

theorem sublist_member (name value : String) :
    ((member name value).map Prod.fst).Sublist [name] := List.Sublist.refl _

theorem Envelope.members_sublist (envelope : Envelope) :
    (envelope.members.map Prod.fst).Sublist envelopeNames :=
  sublist_append (sublist_append (sublist_append (sublist_append (sublist_append (sublist_append
    (sublist_member _ _) (sublist_member _ _)) (sublist_member _ _)) (sublist_optionalMember _ _))
    (sublist_optionalMember _ _)) (sublist_pointerMember _ _ _)) (sublist_pointerMember _ _ _)

/-- The members of an object: each name at most once and known, with the identity, the state
under its key, and the revision among them. -/
structure Tells (names : List String) (stateKey : String) (entries : Json.Object) (id state : String)
    (revision : ℤ) : Prop where
  nodup : (entries.map Prod.fst).Nodup
  known : entries.map Prod.fst ⊆ names
  id : ("id", .str id) ∈ entries
  state : (stateKey, .str state) ∈ entries
  revision : ("revision", .num revision) ∈ entries

theorem Issue.toJson_tells {issue : Issue} {revision : ℤ} (hasRevision : issue.revision = some revision) :
    ∃ entries, issue.toJson = .obj entries ∧
      Tells Issue.names "status" entries issue.id issue.status revision := by
  refine ⟨_, rfl, ?_⟩
  have sublist := sublist_append (sublist_append (sublist_append (sublist_append (sublist_append
    (sublist_append (sublist_append (sublist_append (sublist_append issue.toEnvelope.members_sublist
    (sublist_member "title" issue.title)) (sublist_member "type" issue.type))
    (sublist_member "status" issue.status)) (sublist_optionalMember "severity" issue.severity))
    (sublist_optionalMember "body" issue.body)) (sublist_optionalMember "milestone" issue.milestone))
    (sublist_pointerMember "forgeRef" Reference.toJson issue.forgeRef))
    (sublist_pointerMember "links" IssueLinks.toJson issue.links))
    (sublist_optionalMember "deferredTo" issue.deferredTo)
  exact
    { nodup := sublist.nodup (by decide)
      known := sublist.subset
      id := by simp [Envelope.members, member]
      state := by simp [member]
      revision := by simp [Envelope.members, pointerMember, hasRevision] }

theorem Strategy.toJson_tells {strategy : Strategy} {revision : ℤ}
    (hasRevision : strategy.revision = some revision) :
    ∃ entries, strategy.toJson = .obj entries ∧
      Tells Strategy.names "lifecycle" entries strategy.id strategy.lifecycle revision := by
  refine ⟨_, rfl, ?_⟩
  have sublist := sublist_append (sublist_append (sublist_append (sublist_append (sublist_append
    (sublist_append (sublist_append (sublist_append strategy.toEnvelope.members_sublist
    (sublist_member "title" strategy.title)) (sublist_member "lifecycle" strategy.lifecycle))
    (sublist_member "guidance" strategy.guidance))
    (sublist_optionalMember "whenToUse" strategy.whenToUse))
    (sublist_optionalMember "whenNotToUse" strategy.whenNotToUse))
    (sublist_pointerMember "applicability" Applicability.toJson strategy.applicability))
    (sublist_listMember "evidence" Reference.toJson strategy.evidence))
    (sublist_optionalMember "supersedes" strategy.supersedes)
  exact
    { nodup := sublist.nodup (by decide)
      known := sublist.subset
      id := by simp [Envelope.members, member]
      state := by simp [member]
      revision := by simp [Envelope.members, pointerMember, hasRevision] }

/-- The identity and the state in the members are those of the decoded issue. -/
theorem decodeIssue_tells {entries : Json.Object} {id state : String} {revision : ℤ}
    (tells : Tells Issue.names "status" entries id state revision) {issue : Issue}
    (decodes : decodeIssue (.obj entries) {} = .ok issue) :
    issue.id = id ∧ issue.status = state := by
  unfold decodeIssue at decodes
  constructor
  · refine GoJson.struct_part (fun target : Issue => target.id) decodes tells.nodup tells.known
      tells.id rfl ?_ ?_
    · rintro current next ⟨⟩
      rfl
    · simp only [envelopeFields, List.cons_append, List.nil_append, List.forall_mem_cons,
        List.not_mem_nil, false_implies, implies_true, and_true]
      and_intros
      all_goals intro notKey
      all_goals first
        | exact absurd rfl notKey
        | exact GoJson.keeps_field fun _ _ => rfl
  · refine GoJson.struct_part (fun target : Issue => target.status) decodes tells.nodup tells.known
      tells.state rfl ?_ ?_
    · rintro current next ⟨⟩
      rfl
    · simp only [envelopeFields, List.cons_append, List.nil_append, List.forall_mem_cons,
        List.not_mem_nil, false_implies, implies_true, and_true]
      and_intros
      all_goals intro notKey
      all_goals first
        | exact absurd rfl notKey
        | exact GoJson.keeps_field fun _ _ => rfl

/-- The identity and the state in the members are those of the decoded strategy. -/
theorem decodeStrategy_tells {entries : Json.Object} {id state : String} {revision : ℤ}
    (tells : Tells Strategy.names "lifecycle" entries id state revision) {strategy : Strategy}
    (decodes : decodeStrategy (.obj entries) {} = .ok strategy) :
    strategy.id = id ∧ strategy.lifecycle = state := by
  unfold decodeStrategy at decodes
  constructor
  · refine GoJson.struct_part (fun target : Strategy => target.id) decodes tells.nodup tells.known
      tells.id rfl ?_ ?_
    · rintro current next ⟨⟩
      rfl
    · simp only [envelopeFields, List.cons_append, List.nil_append, List.forall_mem_cons,
        List.not_mem_nil, false_implies, implies_true, and_true]
      and_intros
      all_goals intro notKey
      all_goals first
        | exact absurd rfl notKey
        | exact GoJson.keeps_field fun _ _ => rfl
  · refine GoJson.struct_part (fun target : Strategy => target.lifecycle) decodes tells.nodup tells.known
      tells.state rfl ?_ ?_
    · rintro current next ⟨⟩
      rfl
    · simp only [envelopeFields, List.cons_append, List.nil_append, List.forall_mem_cons,
        List.not_mem_nil, false_implies, implies_true, and_true]
      and_intros
      all_goals intro notKey
      all_goals first
        | exact absurd rfl notKey
        | exact GoJson.keeps_field fun _ _ => rfl

end Aa.Contracts.V1
