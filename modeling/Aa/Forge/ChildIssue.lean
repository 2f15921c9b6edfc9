import Aa.Forge.CompletePhase
import Aa.Forge.Creates

/-!
# The milestones of child issues

`CreateChildIssue` is idempotent by repository and title, and so is what starts a phase. The issue
it returns is the first that was created in the repository under its title, by whichever phase.
That issue is linked to the milestone of the phase exactly if it was created for that milestone.
-/

namespace Aa.Forge

open Aa.Library Aa.Contracts

/-! ## Issues and their keys -/

def issueKey (repoId title : String) : String := key "issue.create" [repoId, title]

/-- Ids that a key shows as they are. -/
def PlainId (id : String) : Prop :=
  ':' ∉ id.toList ∧ ∀ c ∈ id.toList, Go.isSpace c = false

theorem issueKey_inj {repoId otherId title other : String} (plain : PlainId repoId)
    (plainOther : PlainId otherId) (same : issueKey repoId title = issueKey otherId other) :
    repoId = otherId := by
  have noColon : ':' ∉ "issue.create".toList := by decide
  have shape : ∀ id title, PlainId id →
      issueKey id title = "issue.create" ++ ":" ++ (id ++ ":" ++ Go.trimSpace title) := by
    intro id title isPlain
    have operation : Go.trimSpace "issue.create" = "issue.create" := by decide
    simp only [issueKey, key, List.map_cons, List.map_nil, Go.join, operation,
      Go.trimSpace_of_solid isPlain.2]
  rw [shape repoId title plain, shape otherId other plainOther] at same
  have rests := (Go.append_separator_inj noColon noColon same).2
  exact (Go.append_separator_inj plain.1 plainOther.1 rests).1

namespace Fake

/-- The number of issues that a repository has numbered. -/
def issueCount (fake : Fake) (repoId : String) : ℤ :=
  (fake.counters.lookup ("number:" ++ repoId)).getD 0

/-- The issues of a repository are numbered by its counter, and what is remembered of a create is
stored in its repository. -/
structure IssuesKept (fake : Fake) : Prop where
  counted : ∀ repoId n issue, fake.issues.lookup (repoId, n) = some issue →
    n ≤ fake.issueCount repoId
  stored : ∀ name issue, fake.idem.issues.lookup name = some issue → ∃ repoId title,
    (fake.repos.lookup repoId).isSome ∧ name = issueKey repoId title ∧
      fake.issues.lookup (repoId, issue.number) = some issue

/-- What keeps issues and their counters, and the repositories there are. -/
structure SparesIssues (fake after : Fake) : Prop where
  issues : after.issues = fake.issues
  remembered : after.idem.issues = fake.idem.issues
  counts : ∀ repoId, after.issueCount repoId = fake.issueCount repoId
  repos : ∀ repoId, (fake.repos.lookup repoId).isSome → (after.repos.lookup repoId).isSome

theorem SparesIssues.refl (fake : Fake) : SparesIssues fake fake :=
  ⟨rfl, rfl, fun _ => rfl, fun _ isThere => isThere⟩

theorem SparesIssues.trans {first second third : Fake} (one : SparesIssues first second)
    (two : SparesIssues second third) : SparesIssues first third :=
  ⟨two.issues.trans one.issues, two.remembered.trans one.remembered,
    fun repoId => (two.counts repoId).trans (one.counts repoId),
    fun repoId isThere => two.repos repoId (one.repos repoId isThere)⟩

theorem SparesIssues.kept {fake after : Fake} (spares : SparesIssues fake after)
    (kept : fake.IssuesKept) : after.IssuesKept := by
  constructor
  · intro repoId n issue isStored
    rw [spares.issues] at isStored
    rw [spares.counts]
    exact kept.counted repoId n issue isStored
  · intro name issue isRemembered
    rw [spares.remembered] at isRemembered
    rcases kept.stored name issue isRemembered with ⟨repoId, title, isKnown, isKey, isStored⟩
    exact ⟨repoId, title, spares.repos repoId isKnown, isKey, by rw [spares.issues]; exact isStored⟩

theorem sparesIssues_maybeFail (fake : Fake) (operation : String) :
    SparesIssues fake (fake.maybeFail operation).2 := by
  unfold maybeFail
  split
  · exact .refl fake
  · exact ⟨rfl, rfl, fun _ => rfl, fun _ isThere => isThere⟩

theorem number_ne {counter : String} (noNumber : "number:".toList.isPrefixOf counter.toList = false) :
    ∀ repoId, "number:" ++ repoId ≠ counter := by
  rintro repoId rfl
  rw [String.toList_append] at noNumber
  have isPrefix := List.isPrefixOf_iff_prefix.mpr (List.prefix_append "number:".toList repoId.toList)
  rw [isPrefix] at noNumber
  cases noNumber

/-- Taking a value from another counter. -/
theorem sparesIssues_next (fake : Fake) {counter : String}
    (other : ∀ repoId, "number:" ++ repoId ≠ counter) : SparesIssues fake (fake.next counter).2 := by
  refine ⟨rfl, rfl, fun repoId => ?_, fun _ isThere => isThere⟩
  simp only [issueCount, next, AList.lookup_insert_ne (other repoId)]

theorem sparesIssues_nextId (fake : Fake) {label : String}
    (other : ∀ repoId, "number:" ++ repoId ≠ label) : SparesIssues fake (fake.nextId label).2 :=
  sparesIssues_next fake other

theorem sparesIssues_orElse {α : Type} [DecidableEq α] {given default : α} {fresh : Fake → α × Fake}
    (spares : ∀ fake, SparesIssues fake (fresh fake).2) (fake : Fake) :
    SparesIssues fake (orElse given default fresh fake).2 := by
  unfold orElse
  split
  · exact spares fake
  · exact .refl fake

section CreateOnce

variable {α : Type} {fake : Fake} {operation key : String} {existing : Option α}
  {replayed : α → String × Ref} {make : Fake → α × Fake} {save : α → Fake → Fake}
  {created : α → String × Ref × List (String × String)}

/-- A create replays, fails or stores what it makes. -/
theorem createOnce_elim {motive : Except Error α × Fake → Prop}
    (replays : ∀ old, existing = some old → motive (.ok old,
      fake.record operation key (replayed old).1 (replayed old).2 [("idempotent", "replay")]))
    (fails : ∀ error, motive (.error error, (fake.maybeFail operation).2))
    (stores : existing = none → motive (.ok (make fake).1,
      (save (make fake).1 (make fake).2).record operation key (created (make fake).1).1
        (created (make fake).1).2.1 (created (make fake).1).2.2)) :
    motive (fake.createOnce operation key existing replayed make save created) := by
  cases existing with
  | some old => exact replays old rfl
  | none =>
      cases pending : fake.pendingFailure operation with
      | none =>
          simp only [createOnce, maybeFail_of_pending.1 pending]
          exact stores rfl
      | some failure =>
          have isPending : fake.pendingFailure operation ≠ none := by simp [pending]
          rcases maybeFail_of_pending.2 isPending with ⟨error, isError⟩
          have failed := fails error
          simp only [createOnce]
          split
          · rename_i isFailed
            rw [isFailed] at isError failed
            cases isError
            exact failed
          · rename_i isFailed
            rw [isFailed] at isError
            cases isError

/-- A create of something else. -/
theorem sparesIssues_createOnce (makes : ∀ fake, SparesIssues fake (make fake).2)
    (saves : ∀ object fake, SparesIssues fake (save object fake)) :
    SparesIssues fake (fake.createOnce operation key existing replayed make save created).2 := by
  refine createOnce_elim (motive := fun ends => SparesIssues fake ends.2) ?_ ?_ ?_
  · exact fun _ _ => ⟨rfl, rfl, fun _ => rfl, fun _ isThere => isThere⟩
  · exact fun _ => sparesIssues_maybeFail fake operation
  · intro _
    have made := (makes fake).trans (saves (make fake).1 (make fake).2)
    exact ⟨made.issues, made.remembered, made.counts, made.repos⟩

end CreateOnce

theorem sparesIssues_createRepository (fake : Fake) (cancelled : Option Error) (repo : Repository) :
    SparesIssues fake (fake.createRepository cancelled repo).2 := by
  unfold createRepository unlessCancelled
  split
  · exact .refl fake
  · split
    · exact .refl fake
    · refine sparesIssues_createOnce (fun fake => ?_) (fun repo fake => ?_)
      · have other : ∀ repoId, "number:" ++ repoId ≠ "repo" := number_ne (by decide)
        exact sparesIssues_orElse (fun fake => sparesIssues_nextId fake other) fake
      · exact ⟨rfl, rfl, fun _ => rfl, fun _ isThere => isSome_insert isThere⟩

theorem sparesIssues_createBranch (fake : Fake) (cancelled : Option Error) (repoId : String)
    (branch : Branch) : SparesIssues fake (fake.createBranch cancelled repoId branch).2 := by
  unfold createBranch unlessCancelled
  split
  · exact .refl fake
  · split
    · exact .refl fake
    · split
      · exact .refl fake
      · refine sparesIssues_createOnce (fun fake => .refl fake) (fun branch fake => ?_)
        exact ⟨rfl, rfl, fun _ => rfl, fun _ isThere => isThere⟩

theorem sparesIssues_createMilestone (fake : Fake) (cancelled : Option Error) (repoId : String)
    (milestone : Milestone) :
    SparesIssues fake (fake.createMilestone cancelled repoId milestone).2 := by
  unfold createMilestone unlessCancelled
  split
  · exact .refl fake
  · split
    · exact .refl fake
    · split
      · exact .refl fake
      · refine sparesIssues_createOnce (fun fake => ?_) (fun milestone fake => ?_)
        · have other : ∀ repoId, "number:" ++ repoId ≠ "milestone" := number_ne (by decide)
          exact sparesIssues_orElse (fun fake => sparesIssues_nextId fake other) fake
        · exact ⟨rfl, rfl, fun _ => rfl, fun _ isThere => isThere⟩

theorem sparesIssues_openPullRequest (fake : Fake) (cancelled : Option Error) (repoId : String)
    (pr : PullRequest) : SparesIssues fake (fake.openPullRequest cancelled repoId pr).2 := by
  have otherCounter : ∀ other, "number:" ++ other ≠ "prnumber:" ++ repoId := by
    refine number_ne ?_
    rw [String.toList_append]
    rfl
  unfold openPullRequest unlessCancelled
  split
  · exact .refl fake
  · split
    · exact .refl fake
    · split
      · exact .refl fake
      · refine sparesIssues_createOnce (fun fake => ?_) (fun pr fake => ?_)
        · have other : ∀ repoId, "number:" ++ repoId ≠ "pull" := number_ne (by decide)
          exact (sparesIssues_orElse (fun fake => sparesIssues_nextId fake other) fake).trans
            (sparesIssues_orElse (fun fake => sparesIssues_next fake otherCounter) _)
        · exact ⟨rfl, rfl, fun _ => rfl, fun _ isThere => isThere⟩

/-! ## Creating issues -/

/-- The forge after an issue without a number of its own was created: the issue is stored under the
next number of the repository. -/
structure StoresNext (fake after : Fake) (repoId : String) (issue made : Issue) : Prop where
  known : (fake.repos.lookup repoId).isSome
  fresh : fake.idem.issues.lookup (issueKey repoId issue.title) = none
  number : made.number = fake.issueCount repoId + 1
  milestone : made.milestone = issue.milestone
  issues : after.issues = fake.issues.insert (repoId, made.number) made
  remembered : after.idem.issues = fake.idem.issues.insert (issueKey repoId issue.title) made
  count : after.issueCount repoId = fake.issueCount repoId + 1
  counts : ∀ other, other ≠ repoId → after.issueCount other = fake.issueCount other
  repos : ∀ other, (fake.repos.lookup other).isSome → (after.repos.lookup other).isSome

theorem issueCount_insert {counters : GoMap String ℤ} {repoId : String} {value : ℤ} (other : String) :
    ((counters.insert ("number:" ++ repoId) value).lookup ("number:" ++ other)).getD 0 =
      if other = repoId then value else (counters.lookup ("number:" ++ other)).getD 0 := by
  by_cases same : other = repoId
  · subst same
    simp
  · have apart : "number:" ++ other ≠ "number:" ++ repoId := by
      intro isSame
      exact same (String.append_right_inj _ |>.mp isSame)
    rw [if_neg same, AList.lookup_insert_ne apart]

/-- What creating an issue without a number of its own ends in. -/
inductive IssueEnds (fake : Fake) (repoId : String) (issue : Issue) :
    Except Error Issue × Fake → Prop
  | replays {old : Issue} {after : Fake} (known : (fake.repos.lookup repoId).isSome)
      (remembered : fake.idem.issues.lookup (issueKey repoId issue.title) = some old)
      (spares : SparesIssues fake after) : IssueEnds fake repoId issue (.ok old, after)
  | fails {error : Error} {after : Fake} (spares : SparesIssues fake after) :
      IssueEnds fake repoId issue (.error error, after)
  | stores {made : Issue} {after : Fake} (stores : StoresNext fake after repoId issue made) :
      IssueEnds fake repoId issue (.ok made, after)

theorem issueEnds_createIssue (fake : Fake) (cancelled : Option Error) (repoId : String)
    {issue : Issue} (unnumbered : issue.number = 0) :
    IssueEnds fake repoId issue (fake.createIssue cancelled repoId issue) := by
  unfold createIssue unlessCancelled
  split
  · exact .fails (.refl fake)
  · split
    · exact .fails (.refl fake)
    · rename_i known
      have isKnown : (fake.repos.lookup repoId).isSome := by
        rwa [Bool.not_eq_true, Option.isNone_eq_false_iff] at known
      split
      · exact .fails (.refl fake)
      · refine createOnce_elim ?_ ?_ ?_
        · intro old isOld
          exact .replays isKnown isOld ⟨rfl, rfl, fun _ => rfl, fun _ isThere => isThere⟩
        · exact fun error => .fails (sparesIssues_maybeFail fake "issue.create")
        · intro fresh
          have other : ∀ repoId, "number:" ++ repoId ≠ "issue" := number_ne (by decide)
          have spares : SparesIssues fake (orElse issue.id "" (·.nextId "issue") fake).2 :=
            sparesIssues_orElse (fun fake => sparesIssues_nextId fake other) fake
          generalize orElse issue.id "" (·.nextId "issue") fake = named at spares ⊢
          rcases named with ⟨id, named⟩
          have numbered : orElse issue.number 0 (·.nextNumber repoId) named =
              named.nextNumber repoId := if_pos unnumbered
          simp only [numbered] at spares ⊢
          exact .stores
            { known := isKnown
              fresh := fresh
              number := congrArg (· + 1) (spares.counts repoId)
              milestone := rfl
              issues := congrArg (fun issues => AList.insert _ _ issues) spares.issues
              remembered := congrArg (fun issues => AList.insert _ _ issues) spares.remembered
              count := (issueCount_insert repoId).trans
                ((if_pos rfl).trans (congrArg (· + 1) (spares.counts repoId)))
              counts := fun other apart => (issueCount_insert other).trans
                ((if_neg apart).trans (spares.counts other))
              repos := spares.repos }

theorem IssueEnds.known {fake : Fake} {repoId : String} {issue : Issue}
    {ends : Except Error Issue × Fake} (outcome : IssueEnds fake repoId issue ends) (made : Issue)
    (succeeds : ends.1 = .ok made) : (fake.repos.lookup repoId).isSome := by
  cases outcome with
  | replays known _ _ => exact known
  | fails _ => cases succeeds
  | stores next => exact next.known

/-- The invariant outlives the create of an issue without a number. -/
theorem IssueEnds.kept {fake : Fake} {repoId : String} {issue : Issue}
    {ends : Except Error Issue × Fake} (outcome : IssueEnds fake repoId issue ends)
    (kept : fake.IssuesKept) : ends.2.IssuesKept := by
  cases outcome with
  | replays _ _ spares => exact spares.kept kept
  | fails spares => exact spares.kept kept
  | @stores made after next =>
      have isNew : ∀ n x, fake.issues.lookup (repoId, n) = some x → n ≠ made.number := by
        intro n x isStored
        have isCounted := kept.counted repoId n x isStored
        rw [next.number]
        omega
      constructor
      · intro other n x isStored
        rw [next.issues] at isStored
        rcases Registry.lookup_insert_eq_some isStored with ⟨isSlot, -⟩ | ⟨-, isHeld⟩
        · cases isSlot
          rw [next.number, next.count]
        · have isCounted := kept.counted other n x isHeld
          by_cases same : other = repoId
          · rw [same] at isCounted ⊢
            rw [next.count]
            omega
          · rwa [next.counts other same]
      · intro name x isRemembered
        rw [next.remembered] at isRemembered
        by_cases isKey : name = issueKey repoId issue.title
        · rw [isKey, AList.lookup_insert, Option.some.injEq] at isRemembered
          subst isRemembered
          exact ⟨repoId, issue.title, next.repos repoId next.known, isKey, by
            rw [next.issues, AList.lookup_insert]⟩
        · rw [AList.lookup_insert_ne isKey] at isRemembered
          rcases kept.stored name x isRemembered with ⟨other, title, isKnown, isName, isHeld⟩
          refine ⟨other, title, next.repos other isKnown, isName, ?_⟩
          have apart : (other, x.number) ≠ (repoId, made.number) := by
            intro isSlot
            rcases Prod.mk.inj isSlot with ⟨rfl, sameNumber⟩
            exact isNew _ x isHeld sameNumber
          rw [next.issues, AList.lookup_insert_ne apart, isHeld]

end Fake

/-! ## Calls of the manager -/

/-- The issues of the forge are kept. -/
def World.IssuesKept (world : World) : Prop := world.forge.IssuesKept

theorem sparesIssues_meanwhile (faults : Faults) (world : World) :
    Fake.SparesIssues world.forge (world.meanwhile faults).forge := by
  have same : (world.meanwhile faults).forge.tables = world.forge.tables :=
    Manager.meanwhile_part faults world
  have counters := congrArg Tables.counters same
  refine ⟨congrArg Tables.issues same, congrArg (fun tables => tables.idem.issues) same, ?_, ?_⟩
  · intro repoId
    exact congrArg (fun counters => (AList.lookup ("number:" ++ repoId) counters).getD 0) counters
  · intro repoId isThere
    have repos : (world.meanwhile faults).forge.repos = world.forge.repos :=
      congrArg Tables.repos same
    rwa [repos]

theorem driveForge_keepsIssues {α : Type} {cancelled : Faults → Option Error}
    {step : Fake → Option Error → Except Error α × Fake}
    (spares : ∀ fake cancelled, Fake.SparesIssues fake (step fake cancelled).2) :
    Attempt.Keeps World.IssuesKept (driveForge cancelled step) :=
  fun faults world kept => (spares world.forge (cancelled faults)).kept kept

namespace Manager

variable (manager : Manager)

theorem syncIssue_forge (issue : Issue) (faults : Faults) (world : World) :
    (manager.syncIssue issue faults world).2.forge = world.forge := by
  unfold syncIssue
  split
  · split
    · rfl
    · split <;> rfl
  · rfl

theorem syncIssue_keepsIssues (issue : Issue) :
    Attempt.Keeps World.IssuesKept (manager.syncIssue issue) := by
  intro faults world kept
  rw [World.IssuesKept, syncIssue_forge]
  exact kept

theorem createIssue_keepsIssues (repoId : String) {issue : Issue} (unnumbered : issue.number = 0) :
    Attempt.Keeps World.IssuesKept
      (driveForge (·.issue) fun fake cancelled => fake.createIssue cancelled repoId issue) :=
  fun faults world kept =>
    (Fake.issueEnds_createIssue world.forge faults.issue repoId unnumbered).kept kept

theorem startPhase_keepsIssues (spec : PhaseSpec) :
    Attempt.Keeps World.IssuesKept (manager.startPhase spec) := by
  refine .bind (.check _) fun _ => .bind (.check _) fun _ => ?_
  refine .bind (.mapError _ (driveForge_keepsIssues fun fake cancelled =>
    fake.sparesIssues_createRepository cancelled _)) fun repo => ?_
  refine .bind (.mapError _ (driveForge_keepsIssues fun fake cancelled =>
    fake.sparesIssues_createBranch cancelled _ _)) fun _ => ?_
  refine .bind (.mapError _ (driveForge_keepsIssues fun fake cancelled =>
    fake.sparesIssues_createMilestone cancelled _ _)) fun milestone => ?_
  refine .bind ?_ fun issue => ?_
  · refine .bind (.mapError _ (createIssue_keepsIssues repo.id rfl)) fun issue => ?_
    exact .bind (manager.syncIssue_keepsIssues issue) fun _ => .pure issue
  · refine .bind (.mapError _ (driveForge_keepsIssues fun fake cancelled =>
      fake.sparesIssues_openPullRequest cancelled _ _)) fun pr => ?_
    exact .pure _

theorem createChildIssue_keepsIssues (phase : Phase) (spec : ChildIssueSpec) :
    Attempt.Keeps World.IssuesKept (manager.createChildIssue phase spec) := by
  refine .bind (.mapError _ (createIssue_keepsIssues phase.repo.id rfl)) fun issue => ?_
  exact .bind (manager.syncIssue_keepsIssues issue) fun _ => .pure issue

/-- The issue that is asked of the forge for a child issue. -/
def askedIssue (phase : Phase) (spec : ChildIssueSpec) : Issue :=
  { title := spec.title
    body := manager.render "github/feature-issue.md"
      (.featureIssue { title := spec.title, goal := spec.goal, requirements := spec.requirements
                       acceptance := spec.acceptance, notes := spec.notes })
    type := if spec.type = "" then "feature" else spec.type
    milestone := phase.milestone.id }

/-- A child issue that is returned is what the create of the forge returned. -/
theorem ends_of_createChildIssue {phase : Phase} {spec : ChildIssueSpec} {faults : Faults}
    {world after : World} {issue : Issue}
    (succeeds : manager.createChildIssue phase spec faults world = (.ok issue, after)) :
    Fake.IssueEnds world.forge phase.repo.id (manager.askedIssue phase spec)
      (.ok issue, after.forge) := by
  rcases Attempt.ok_of_bind succeeds with ⟨created, middle, creates, rest⟩
  rcases Attempt.ok_of_bind rest with ⟨_, last, synced, ends⟩
  cases ends
  have isCreate := driveForge_ok (Attempt.ok_of_mapError creates)
  have sameForge : after.forge = middle.forge := by
    have unchanged := manager.syncIssue_forge issue faults middle
    rwa [synced] at unchanged
  rw [sameForge, ← isCreate]
  exact Fake.issueEnds_createIssue world.forge faults.issue phase.repo.id rfl

/-- A call on the manager. -/
inductive PhaseCall where
  | startPhase (spec : PhaseSpec)
  | createChildIssue (phase : Phase) (spec : ChildIssueSpec)

/-- What a call on the manager returns. -/
inductive PhaseAnswer where
  | phase (result : Except Error Phase)
  | issue (result : Except Error Issue)

/-- A call, after what happens before it. -/
def performPhase (world : World) (faults : Faults) : PhaseCall → World × PhaseAnswer
  | .startPhase spec =>
      match manager.startPhase spec faults (world.meanwhile faults) with
      | (result, after) => (after, .phase result)
  | .createChildIssue phase spec =>
      match manager.createChildIssue phase spec faults (world.meanwhile faults) with
      | (result, after) => (after, .issue result)

/-- The manager under calls, each with what it meets. -/
def phaseMachine : Machine World (Faults × PhaseCall) PhaseAnswer where
  step world input := manager.performPhase world input.1 input.2

theorem performPhase_keepsIssues {world : World} (kept : world.IssuesKept) (faults : Faults)
    (call : PhaseCall) : (manager.performPhase world faults call).1.IssuesKept := by
  have keptBefore : (world.meanwhile faults).IssuesKept :=
    (sparesIssues_meanwhile faults world).kept kept
  cases call with
  | startPhase spec => exact manager.startPhase_keepsIssues spec faults _ keptBefore
  | createChildIssue phase spec =>
      exact manager.createChildIssue_keepsIssues phase spec faults _ keptBefore

/-- An issue is linked to the milestone of a phase, and stored in the phase's repository. -/
def Linked (phase : Phase) (issue : Issue) (forge : Fake) : Prop :=
  issue.milestone = phase.milestone.id ∧
    forge.issues.lookup (phase.repo.id, issue.number) = some issue

/-- What the forge remembers of the repository and title of a child issue. -/
def Remembers (forge : Fake) (phase : Phase) (title : String) (issue : Issue) : Prop :=
  forge.idem.issues.lookup (issueKey phase.repo.id title) = some issue

/-- A returned child issue is linked exactly if what was remembered of its title, if anything, is. -/
theorem linked_iff {forge after : Fake} {phase : Phase} {spec : ChildIssueSpec} {issue : Issue}
    (ends : Fake.IssueEnds forge phase.repo.id (manager.askedIssue phase spec) (.ok issue, after)) :
    Linked phase issue after ↔
      ∀ old, Remembers forge phase spec.title old → Linked phase old forge := by
  cases ends with
  | replays _ remembered spares =>
      have isOld : ∀ old, Remembers forge phase spec.title old → old = issue := fun old isOld =>
        Option.some.inj (isOld.symm.trans remembered)
      rw [Linked, spares.issues]
      constructor
      · intro linked old isRemembered
        rw [isOld old isRemembered]
        exact linked
      · exact fun linked => linked issue remembered
  | stores next =>
      have isNew : ∀ old, ¬ Remembers forge phase spec.title old := by
        intro old isOld
        cases isOld.symm.trans next.fresh
      refine iff_of_true ⟨next.milestone, ?_⟩ fun old isOld => absurd isOld (isNew old)
      rw [next.issues, AList.lookup_insert]

/-- Where the ids of repositories are plain, what is remembered is stored in its repository. -/
theorem linked_iff_milestone {forge : Fake} (kept : forge.IssuesKept)
    (plain : ∀ id, (forge.repos.lookup id).isSome → PlainId id) {phase : Phase} {title : String}
    (known : (forge.repos.lookup phase.repo.id).isSome) {old : Issue}
    (remembered : Remembers forge phase title old) :
    Linked phase old forge ↔ old.milestone = phase.milestone.id := by
  rcases kept.stored _ old remembered with ⟨repoId, other, isKnown, isKey, isStored⟩
  have sameRepo := issueKey_inj (plain _ known) (plain repoId isKnown) isKey
  rw [Linked, sameRepo]
  exact and_iff_left isStored

end Manager

/-- In every history of phase starts and child issues, by whatever failures, a child issue that is
returned is stored in the repository of its phase and linked to its milestone exactly if that holds
of the issue that was remembered of its repository and title, if there was one; and where the ids of
repositories have no colon or blank, exactly if that issue has the milestone. -/
theorem childIssue_linked_iff (manager : Manager) (clock : ℕ → Time)
    (calls : List (Faults × Manager.PhaseCall)) :
    ∀ step ∈ manager.phaseMachine.steps { forge := { clock := clock } } calls,
      ∀ phase spec issue, step.input.2 = .createChildIssue phase spec →
        step.output = .issue (.ok issue) →
          (Manager.Linked phase issue step.after.forge ↔
            ∀ old, Manager.Remembers step.before.forge phase spec.title old →
              Manager.Linked phase old step.before.forge) ∧
          ((∀ id, (step.before.forge.repos.lookup id).isSome → PlainId id) →
            (Manager.Linked phase issue step.after.forge ↔
              ∀ old, Manager.Remembers step.before.forge phase spec.title old →
                old.milestone = phase.milestone.id)) := by
  intro step stepMem phase spec issue isCall isIssue
  have initial : World.IssuesKept { forge := { clock := clock } } := by
    constructor
    · intro repoId n issue isStored
      cases isStored
    · intro name issue isRemembered
      cases isRemembered
  have preserved : ∀ world input, World.IssuesKept world →
      World.IssuesKept (manager.phaseMachine.step world input).1 := fun world input holds =>
    manager.performPhase_keepsIssues holds input.1 input.2
  have kept : step.before.IssuesKept := Machine.invariant_before preserved initial stepMem
  have isStep := Machine.step_eq_stepAt stepMem
  rcases step with ⟨before, ⟨faults, call⟩, output, after⟩
  simp only at isCall isIssue kept ⊢
  subst isCall isIssue
  cases ends : manager.createChildIssue phase spec faults (before.meanwhile faults) with
  | mk result last =>
      simp only [Machine.stepAt, Manager.phaseMachine, Manager.performPhase, ends,
        Machine.Step.mk.injEq, Manager.PhaseAnswer.issue.injEq, true_and] at isStep
      rcases isStep with ⟨isOk, isLast⟩
      rw [← isOk, ← isLast] at ends
      have outcome := manager.ends_of_createChildIssue ends
      have same : (before.meanwhile faults).forge.tables = before.forge.tables :=
        Manager.meanwhile_part faults before
      have issues : (before.meanwhile faults).forge.issues = before.forge.issues :=
        congrArg Tables.issues same
      have remembered : (before.meanwhile faults).forge.idem = before.forge.idem :=
        congrArg Tables.idem same
      have repos : (before.meanwhile faults).forge.repos = before.forge.repos :=
        congrArg Tables.repos same
      have linked := Manager.linked_iff manager outcome
      simp only [Manager.Linked, Manager.Remembers, issues, remembered] at linked
      refine ⟨linked, fun plain => linked.trans (forall₂_congr fun old isRemembered => ?_)⟩
      have known := outcome.known issue rfl
      rw [repos] at known
      exact Manager.linked_iff_milestone kept plain known isRemembered

/-! ## Two phases with one title -/

def quiet : Faults := { stamp := epoch }

def phaseSpec (number : ℤ) (scope objective : String) : PhaseSpec where
  repository := { owner := "greadee", name := "aa" }
  number := number
  scope := scope
  objective := objective
  milestone := ""

/-- The phase of a number that a forge without other issues starts. -/
def startedPhase (number : ℤ) (scope objective milestone : String) : Phase where
  repo :=
    { id := "repo_1", owner := "greadee", name := "aa", defaultBranch := "main"
      ref := { kind := "repository", id := "repo_1", url := "forge://greadee/aa" } }
  number := number
  scope := scope
  branch := phaseBranch number scope
  milestone :=
    { id := "milestone_" ++ Go.itoa number, title := milestone, state := "open"
      ref := { kind := "milestone", id := "milestone_" ++ Go.itoa number } }
  trackingIssue :=
    { id := "issue_" ++ Go.itoa number, number := number
      title := "Phase " ++ Go.itoa number ++ ": " ++ objective, type := "feature", state := "open"
      milestone := "milestone_" ++ Go.itoa number
      ref := { kind := "issue", id := "issue_" ++ Go.itoa number } }
  phasePR :=
    { id := "pull_" ++ Go.itoa number, number := number
      title := "Phase " ++ Go.itoa number ++ ": " ++ objective, base := "main"
      head := phaseBranch number scope, state := "open", draft := true
      ref := { kind := "pull_request", id := "pull_" ++ Go.itoa number } }

def phaseOne : Phase := startedPhase 1 "one" "first" "Phase 1 — One"

def phaseTwo : Phase := startedPhase 2 "two" "second" "Phase 2 — Two"

/-- Two phases are started and each gets a child issue of the same title. -/
def repeatedTitle : List (Faults × Manager.PhaseCall) :=
  [(quiet, .startPhase (phaseSpec 1 "one" "first")),
    (quiet, .startPhase (phaseSpec 2 "two" "second")),
    (quiet, .createChildIssue phaseOne { title := "add tests" }),
    (quiet, .createChildIssue phaseTwo { title := "add tests" })]

/-- The child issue of the first phase is linked: nothing was remembered of its title. -/
theorem repeatedTitle_linked :
    ∃ step ∈ (Manager.phaseMachine {}).steps { forge := { clock := fun _ => zeroTime } } repeatedTitle,
      ∃ issue, step.output = .issue (.ok issue) ∧
        Manager.Linked phaseOne issue step.after.forge := by
  have linked := childIssue_linked_iff {} (fun _ => zeroTime) repeatedTitle
  simp only [repeatedTitle, Machine.steps_cons, Machine.steps_nil, List.mem_cons,
    List.not_mem_nil, or_false, forall_eq_or_imp, forall_eq] at linked ⊢
  refine ⟨_, .inr (.inr (.inl rfl)), _, rfl, ?_⟩
  refine (linked.2.2.1 phaseOne { title := "add tests" } _ rfl rfl).1.mpr ?_
  intro old isOld
  cases isOld

/-- The first two calls return the two phases, and the last returns the issue of the first. -/
theorem repeatedTitle_unlinked :
    (((Manager.phaseMachine {}).steps { forge := { clock := fun _ => zeroTime } } repeatedTitle).map
        Machine.Step.output).take 2 = [.phase (.ok phaseOne), .phase (.ok phaseTwo)] ∧
    ¬ ∀ (manager : Manager) (clock : ℕ → Time) (calls : List (Faults × Manager.PhaseCall)),
      ∀ step ∈ manager.phaseMachine.steps { forge := { clock := clock } } calls,
        ∀ phase spec issue, step.input.2 = .createChildIssue phase spec →
          step.output = .issue (.ok issue) → Manager.Linked phase issue step.after.forge := by
  refine ⟨rfl, fun linked => ?_⟩
  have last := linked {} (fun _ => zeroTime) repeatedTitle
  simp only [repeatedTitle, Machine.steps_cons, Machine.steps_nil, List.mem_cons,
    List.not_mem_nil, or_false, forall_eq_or_imp, forall_eq] at last
  have same := (last.2.2.2 phaseTwo { title := "add tests" } _ rfl rfl).1
  exact absurd same (by decide)

end Aa.Forge
