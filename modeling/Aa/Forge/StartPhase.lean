import Aa.Forge.Lifecycle

/-!
# Starting a phase is safe to repeat

Each create of the forge has its whole effect or none, and its idempotency key makes it
give the same object ever after. So the steps that start a phase are retryable one by one,
and so is the call that takes them: whatever fails on the way, calls until one succeeds
give the phase that one call without failures gives, and leave the forge as it does.
-/

namespace Aa.Forge

open Aa.Library Aa.Contracts

/-- What a forge holds, without its audit log and its injected failures. -/
structure Tables where
  repos : GoMap String Repository
  branches : GoMap (String × String) Branch
  milestones : GoMap (String × String) Milestone
  issues : GoMap (String × ℤ) Issue
  pulls : GoMap (String × ℤ) PullRequest
  checkpoints : GoMap (String × String) Checkpoint
  releases : GoMap (String × String) Release
  counters : GoMap String ℤ
  idem : Idempotent

def Fake.tables (fake : Fake) : Tables :=
  { repos := fake.repos, branches := fake.branches, milestones := fake.milestones
    issues := fake.issues, pulls := fake.pulls, checkpoints := fake.checkpoints
    releases := fake.releases, counters := fake.counters, idem := fake.idem }

/-- What a map holds, the other holds. -/
def Within {Key Value : Type} [DecidableEq Key] (earlier later : GoMap Key Value) : Prop :=
  ∀ key value, earlier.lookup key = some value → later.lookup key = some value

theorem Within.refl {Key Value : Type} [DecidableEq Key] (table : GoMap Key Value) :
    Within table table := fun _ _ found => found

theorem Within.trans {Key Value : Type} [DecidableEq Key] {first second third : GoMap Key Value}
    (one : Within first second) (two : Within second third) : Within first third :=
  fun key value found => two key value (one key value found)

theorem Within.insert {Key Value : Type} [DecidableEq Key] {table : GoMap Key Value} {key : Key}
    (absent : table.lookup key = none) (value : Value) : Within table (table.insert key value) := by
  intro other held found
  have keyNe : other ≠ key := by
    rintro rfl
    rw [absent] at found
    cases found
  rwa [AList.lookup_insert_ne keyNe]

theorem isSome_insert {Key Value : Type} [DecidableEq Key] {table : GoMap Key Value} {key other : Key}
    {value : Value} (isThere : (table.lookup other).isSome) :
    ((table.insert key value).lookup other).isSome := by
  by_cases same : other = key
  · rw [same, AList.lookup_insert]
    rfl
  · rwa [AList.lookup_insert_ne same]

/-- A forge goes on: its repositories stay, and so does what was created under a key. -/
instance : Preorder Tables where
  le earlier later :=
    (∀ id, (earlier.repos.lookup id).isSome → (later.repos.lookup id).isSome) ∧
      Within earlier.idem.repositories later.idem.repositories ∧
      Within earlier.idem.branches later.idem.branches ∧
      Within earlier.idem.milestones later.idem.milestones ∧
      Within earlier.idem.issues later.idem.issues ∧
      Within earlier.idem.pulls later.idem.pulls
  le_refl tables :=
    ⟨fun _ isThere => isThere, .refl _, .refl _, .refl _, .refl _, .refl _⟩
  le_trans first second third one two :=
    ⟨fun id isThere => two.1 id (one.1 id isThere), one.2.1.trans two.2.1,
      one.2.2.1.trans two.2.2.1, one.2.2.2.1.trans two.2.2.2.1,
      one.2.2.2.2.1.trans two.2.2.2.2.1, one.2.2.2.2.2.trans two.2.2.2.2.2⟩

/-! ## The creates -/

section Once

variable {α : Type} {operation : String}

/-- What a create does to what the forge holds: it finds the object of its key, or makes and
saves one. -/
def onceWork (find : Tables → Option α) (make : Tables → α × Tables)
    (save : α → Tables → Tables) : Work Tables Error α := fun tables =>
  match find tables with
  | some old => (.ok old, tables)
  | none => (.ok (make tables).1, save (make tables).1 (make tables).2)

/-- Work that is done only where it is allowed. -/
def guarded (allowed : Tables → Check) (work : Work Tables Error α) : Work Tables Error α :=
  fun tables =>
    match allowed tables with
    | .error error => (.error error, tables)
    | .ok () => work tables

theorem settles_onceWork {find : Tables → Option α} {make : Tables → α × Tables}
    {save : α → Tables → Tables}
    (stays : ∀ earlier later : Tables, earlier ≤ later → ∀ object,
      find earlier = some object → find later = some object)
    (saved : ∀ object tables, find (save object tables) = some object)
    (grows : ∀ tables, find tables = none →
      tables ≤ save (make tables).1 (make tables).2) :
    (onceWork find make save).Settles := by
  constructor
  · intro tables after raised fails
    unfold onceWork at fails
    split at fails <;> cases fails
  · intro tables after object succeeds
    unfold onceWork at succeeds
    have again : ∀ later, after ≤ later → find later = some object := by
      intro later isLater
      refine stays after later isLater object ?_
      split at succeeds
      · rename_i found
        cases succeeds
        exact found
      · cases succeeds
        exact saved _ _
    refine ⟨?_, fun later isLater => by simp only [onceWork, again later isLater]⟩
    split at succeeds
    · cases succeeds
      exact le_rfl
    · rename_i absent
      cases succeeds
      exact grows tables absent

theorem settles_guarded {allowed : Tables → Check} {work : Work Tables Error α}
    (settles : work.Settles)
    (stays : ∀ earlier later : Tables, earlier ≤ later →
      allowed earlier = .ok () → allowed later = .ok ()) :
    (guarded allowed work).Settles := by
  constructor
  · intro tables after raised fails
    unfold guarded at fails
    split at fails
    · cases fails
      rfl
    · exact settles.error fails
  · intro tables after object succeeds
    unfold guarded at succeeds
    split at succeeds
    · cases succeeds
    · rename_i isAllowed
      rcases settles.ok succeeds with ⟨grows, again⟩
      refine ⟨grows, fun later isLater => ?_⟩
      simp only [guarded, stays tables later (grows.trans isLater) isAllowed]
      exact again later isLater

/-- A step of the forge does some work on what the forge holds, or fails and changes nothing of
it; without a failure of its operation it does the work. -/
structure Steps (operation : String) (step : Fake → Option Error → Except Error α × Fake)
    (work : Work Tables Error α) : Prop where
  atomic : ∀ fake cancelled,
    work fake.tables = ((step fake cancelled).1, (step fake cancelled).2.tables) ∨
      (∃ error, (step fake cancelled).1 = .error error) ∧
        (step fake cancelled).2.tables = fake.tables
  clean : ∀ fake, fake.pendingFailure operation = none →
    work fake.tables = ((step fake none).1, (step fake none).2.tables) ∧
      (step fake none).2.failures = fake.failures

theorem Fake.record_tables (fake : Fake) (operation key repoId : String) (target : Ref)
    (fields : List (String × String)) :
    (fake.record operation key repoId target fields).tables = fake.tables := rfl

/-- A create whose parts work on what the forge holds. -/
theorem createOnce_steps {key : String} {find : Tables → Option α} {make : Fake → α × Fake}
    {save : α → Fake → Fake} {makeTables : Tables → α × Tables}
    {saveTables : α → Tables → Tables} {replayed : α → String × Ref}
    {created : α → String × Ref × List (String × String)}
    (makes : ∀ fake, ((make fake).1, (make fake).2.tables) = makeTables fake.tables ∧
      (make fake).2.failures = fake.failures)
    (saves : ∀ object fake, (save object fake).tables = saveTables object fake.tables ∧
      (save object fake).failures = fake.failures)
    (fake : Fake) :
    let ends := fake.createOnce operation key (find fake.tables) replayed make save created
    (onceWork find makeTables saveTables fake.tables = (ends.1, ends.2.tables) ∨
      (∃ error, ends.1 = .error error) ∧ ends.2.tables = fake.tables) ∧
    (fake.pendingFailure operation = none →
      onceWork find makeTables saveTables fake.tables = (ends.1, ends.2.tables) ∧
        ends.2.failures = fake.failures) := by
  intro ends
  have isEnds : ends = fake.createOnce operation key (find fake.tables) replayed make save created :=
    rfl
  unfold Fake.createOnce at isEnds
  cases found : find fake.tables with
  | some old =>
      simp only [found] at isEnds
      have whole : onceWork find makeTables saveTables fake.tables = (ends.1, ends.2.tables) := by
        simp only [onceWork, found, isEnds, Fake.record_tables]
      refine ⟨.inl whole, fun _ => ⟨whole, ?_⟩⟩
      rw [isEnds]
      rfl
  | none =>
      simp only [found] at isEnds
      cases pending : fake.pendingFailure operation with
      | some failure =>
          have fails : fake.maybeFail operation = (some failure.error, { fake with
              failures := fake.failures.insert operation
                ⟨failure.remaining - 1, failure.error⟩ }) := by
            simp only [Fake.maybeFail, pending]
          simp only [fails] at isEnds
          refine ⟨.inr ⟨⟨failure.error, by rw [isEnds]⟩, by rw [isEnds]; rfl⟩, fun isNone => ?_⟩
          cases isNone
      | none =>
          have passes : fake.maybeFail operation = (none, fake) := by
            simp only [Fake.maybeFail, pending]
          simp only [passes] at isEnds
          rcases makes fake with ⟨makesTables, makesFailures⟩
          have whole : onceWork find makeTables saveTables fake.tables =
              (ends.1, ends.2.tables) := by
            simp only [onceWork, found, isEnds, Fake.record_tables, ← makesTables]
            rw [(saves _ _).1]
          refine ⟨.inl whole, fun _ => ⟨whole, ?_⟩⟩
          rw [isEnds]
          exact ((saves _ _).2).trans makesFailures

/-- A create that is allowed or not, and not cancelled. -/
theorem Steps.of_guarded {step : Fake → Option Error → Except Error α × Fake}
    {inner : Fake → Except Error α × Fake} {allowed : Tables → Check} {work : Work Tables Error α}
    (cancels : ∀ fake error, step fake (some error) = (.error error, fake))
    (forbids : ∀ fake error, allowed fake.tables = .error error →
      step fake none = (.error error, fake))
    (allows : ∀ fake, allowed fake.tables = .ok () → step fake none = inner fake)
    (ends : ∀ fake,
      (work fake.tables = ((inner fake).1, (inner fake).2.tables) ∨
        (∃ error, (inner fake).1 = .error error) ∧ (inner fake).2.tables = fake.tables) ∧
      (fake.pendingFailure operation = none →
        work fake.tables = ((inner fake).1, (inner fake).2.tables) ∧
          (inner fake).2.failures = fake.failures)) :
    Steps operation step (guarded allowed work) := by
  constructor
  · intro fake cancelled
    cases cancelled with
    | some error =>
        rw [cancels]
        exact .inr ⟨⟨error, rfl⟩, rfl⟩
    | none =>
        cases isAllowed : allowed fake.tables with
        | error error =>
            rw [forbids fake error isAllowed]
            exact .inr ⟨⟨error, rfl⟩, rfl⟩
        | ok _ =>
            rw [allows fake isAllowed]
            simp only [guarded, isAllowed]
            exact (ends fake).1
  · intro fake isClean
    cases isAllowed : allowed fake.tables with
    | error error =>
        rw [forbids fake error isAllowed]
        simp only [guarded, isAllowed]
        exact ⟨trivial, trivial⟩
    | ok _ =>
        rw [allows fake isAllowed]
        simp only [guarded, isAllowed]
        exact (ends fake).2 isClean

/-- A forge that holds nothing but its counters. -/
def blank (counters : GoMap String ℤ) : Fake := { clock := fun _ => "", counters := counters }

/-- Completing an object reads and raises counters, and nothing else. -/
def UsesCounters (make : Fake → α × Fake) : Prop :=
  ∀ fake, make fake = ((make (blank fake.counters)).1,
    { fake with counters := (make (blank fake.counters)).2.counters })

/-- A create is a step that settles. -/
theorem exists_steps {step : Fake → Option Error → Except Error α × Fake} {key : String}
    {make : Fake → α × Fake} {save : α → Fake → Fake} {replayed : α → String × Ref}
    {created : α → String × Ref × List (String × String)} (allowed : Tables → Check)
    (find : Tables → Option α) (saveTables : α → Tables → Tables)
    (cancels : ∀ fake error, step fake (some error) = (.error error, fake))
    (forbids : ∀ fake error, allowed fake.tables = .error error →
      step fake none = (.error error, fake))
    (allows : ∀ fake, allowed fake.tables = .ok () → step fake none =
      fake.createOnce operation key (find fake.tables) replayed make save created)
    (usesCounters : UsesCounters make)
    (saves : ∀ object fake, (save object fake).tables = saveTables object fake.tables ∧
      (save object fake).failures = fake.failures)
    (allowedStays : ∀ earlier later : Tables, earlier ≤ later →
      allowed earlier = .ok () → allowed later = .ok ())
    (findStays : ∀ earlier later : Tables, earlier ≤ later → ∀ object,
      find earlier = some object → find later = some object)
    (saved : ∀ object tables, find (saveTables object tables) = some object)
    (grows : ∀ tables object counters, find tables = none →
      tables ≤ saveTables object { tables with counters := counters }) :
    ∃ work : Work Tables Error α, work.Settles ∧ Steps operation step work := by
  refine ⟨guarded allowed (onceWork find (fun tables => ((make (blank tables.counters)).1,
    { tables with counters := (make (blank tables.counters)).2.counters })) saveTables), ?_, ?_⟩
  · refine settles_guarded (settles_onceWork findStays saved ?_) allowedStays
    exact fun tables absent => grows tables _ _ absent
  · refine Steps.of_guarded cancels forbids allows (createOnce_steps ?_ saves)
    intro fake
    rw [usesCounters fake]
    exact ⟨rfl, rfl⟩

end Once

theorem createRepository_steps (repo : Repository) :
    ∃ work : Work Tables Error Repository, work.Settles ∧
      Steps "repository.create" (fun fake cancelled => fake.createRepository cancelled repo) work := by
  refine exists_steps (fun _ => repo.validate)
    (fun tables => tables.idem.repositories.lookup
      (key "repository.create" [repo.owner, repo.name]))
    (fun made tables =>
      { tables with
        repos := tables.repos.insert made.id made
        idem := { tables.idem with
          repositories := tables.idem.repositories.insert
            (key "repository.create" [repo.owner, repo.name]) made } })
    (fun _ _ => rfl) ?_
    (fun fake isAllowed => by
      simp only [Fake.createRepository, Fake.unlessCancelled, isAllowed]
      rfl)
    ?_ (fun _ _ => by exact ⟨rfl, rfl⟩) (fun _ _ _ isAllowed => isAllowed) ?_ ?_ ?_
  · intro fake error isError
    simp only [Fake.createRepository, Fake.unlessCancelled, isError]
  · intro fake
    simp only [Fake.orElse]
    split <;> rfl
  · intro earlier later grows object found
    exact grows.2.1 _ object found
  · intro object tables
    exact AList.lookup_insert _
  · intro tables object counters absent
    refine ⟨fun id isThere => ?_, .insert absent _, .refl _, .refl _, .refl _, .refl _⟩
    exact isSome_insert isThere

/-- Creating something in a repository is allowed where the repository is and the check passes. -/
def inRepository (repoId : String) (check : Check) (tables : Tables) : Check :=
  if (tables.repos.lookup repoId).isNone then
    .error (.wrap .notFound ("repository " ++ repoId))
  else check

theorem inRepository_stays {repoId : String} {check : Check} {earlier later : Tables}
    (grows : earlier ≤ later) (isAllowed : inRepository repoId check earlier = .ok ()) :
    inRepository repoId check later = .ok () := by
  unfold inRepository at isAllowed ⊢
  split at isAllowed
  · cases isAllowed
  · rename_i isThere
    have isSome : (earlier.repos.lookup repoId).isSome := by
      cases found : earlier.repos.lookup repoId with
      | none => simp [found] at isThere
      | some repo => rfl
    have stays := grows.1 repoId isSome
    rw [if_neg (by simp [Option.isSome_iff_ne_none.mp stays])]
    exact isAllowed

/-- What `inRepository` tells of a step that asks for its repository and makes its check. -/
theorem inRepository_cases {repoId : String} {check : Check} {tables : Tables} {result : Check}
    (isResult : inRepository repoId check tables = result) :
    ((tables.repos.lookup repoId).isNone ∧
      result = .error (.wrap .notFound ("repository " ++ repoId))) ∨
    (¬ (tables.repos.lookup repoId).isNone ∧ check = result) := by
  unfold inRepository at isResult
  split at isResult
  · exact .inl ⟨‹_›, isResult.symm⟩
  · exact .inr ⟨‹_›, isResult⟩

/-- A create in a repository, which is asked for first, and then the check is made. -/
theorem exists_steps_in {operation repoId key : String} (check : Check)
    {step : Fake → Option Error → Except Error α × Fake} {rest : Fake → Except Error α × Fake}
    {make : Fake → α × Fake} {save : α → Fake → Fake} {replayed : α → String × Ref}
    {created : α → String × Ref × List (String × String)} (find : Tables → Option α)
    (saveTables : α → Tables → Tables)
    (isStep : ∀ fake cancelled, step fake cancelled = fake.unlessCancelled cancelled
      (if (fake.repos.lookup repoId).isNone then fake.unknownRepository repoId else rest fake))
    (invalid : ∀ fake error, check = .error error → rest fake = (.error error, fake))
    (valid : ∀ fake, check = .ok () → rest fake =
      fake.createOnce operation key (find fake.tables) replayed make save created)
    (usesCounters : UsesCounters make)
    (saves : ∀ object fake, (save object fake).tables = saveTables object fake.tables ∧
      (save object fake).failures = fake.failures)
    (findStays : ∀ earlier later : Tables, earlier ≤ later → ∀ object,
      find earlier = some object → find later = some object)
    (saved : ∀ object tables, find (saveTables object tables) = some object)
    (grows : ∀ tables object counters, find tables = none →
      tables ≤ saveTables object { tables with counters := counters }) :
    ∃ work : Work Tables Error α, work.Settles ∧ Steps operation step work := by
  have cancels : ∀ fake error, step fake (some error) = (.error error, fake) := by
    intro fake error
    rw [isStep]
    rfl
  have forbids : ∀ (fake : Fake) (error : Error),
      inRepository repoId check fake.tables = .error error →
        step fake none = (.error error, fake) := by
    intro fake error isError
    rw [isStep]
    rcases inRepository_cases isError with ⟨isMissing, isNotFound⟩ | ⟨isThere, isInvalid⟩
    · cases isNotFound
      exact if_pos isMissing
    · exact (if_neg isThere).trans (invalid fake error isInvalid)
  have allows : ∀ fake : Fake, inRepository repoId check fake.tables = .ok () →
      step fake none =
        fake.createOnce operation key (find fake.tables) replayed make save created := by
    intro fake isAllowed
    rw [isStep]
    rcases inRepository_cases isAllowed with ⟨-, isNotFound⟩ | ⟨isThere, isValid⟩
    · cases isNotFound
    · exact (if_neg isThere).trans (valid fake isValid)
  exact exists_steps (inRepository repoId check) find saveTables cancels forbids allows
    usesCounters saves (fun _ _ => inRepository_stays) findStays saved grows

theorem createBranch_steps (repoId : String) (branch : Branch) :
    ∃ work : Work Tables Error Branch, work.Settles ∧
      Steps "branch.create" (fun fake cancelled => fake.createBranch cancelled repoId branch)
        work := by
  refine exists_steps_in (validateBranchName branch.name)
    (fun tables => tables.idem.branches.lookup (key "branch.create" [repoId, branch.name]))
    (fun made tables =>
      { tables with
        branches := tables.branches.insert (repoId, made.name) made
        idem := { tables.idem with
          branches := tables.idem.branches.insert (key "branch.create" [repoId, branch.name]) made } })
    (fun _ _ => rfl) (fun fake error isInvalid => by simp only [isInvalid])
    (fun fake isValid => by
      simp only [isValid]
      rfl)
    (fun _ => by rfl) (fun _ _ => by exact ⟨rfl, rfl⟩) ?_ ?_ ?_
  · intro earlier later grows object found
    exact grows.2.2.1 _ object found
  · intro object tables
    exact AList.lookup_insert _
  · intro tables object counters absent
    exact ⟨fun id isThere => isThere, .refl _, .insert absent _, .refl _, .refl _, .refl _⟩

/-- The check a milestone is created with. -/
def milestoneCheck (milestone : Milestone) : Check :=
  if milestone.title = "" then .error (.wrap .invalid "milestone title is required") else .ok ()

theorem createMilestone_steps (repoId : String) (milestone : Milestone) :
    ∃ work : Work Tables Error Milestone, work.Settles ∧
      Steps "milestone.create" (fun fake cancelled => fake.createMilestone cancelled repoId milestone)
        work := by
  refine exists_steps_in (milestoneCheck milestone)
    (fun tables => tables.idem.milestones.lookup (key "milestone.create" [repoId, milestone.title]))
    (fun made tables =>
      { tables with
        milestones := tables.milestones.insert (repoId, made.id) made
        idem := { tables.idem with
          milestones := tables.idem.milestones.insert (key "milestone.create" [repoId, milestone.title]) made } })
    (fun _ _ => rfl)
    (fun fake error isInvalid => by
      unfold milestoneCheck at isInvalid
      split at isInvalid
      · rename_i isUntitled
        cases isInvalid
        exact if_pos isUntitled
      · cases isInvalid)
    (fun fake isValid => by
      unfold milestoneCheck at isValid
      split at isValid
      · cases isValid
      · rename_i isTitled
        exact if_neg isTitled)
    (fun fake => by
      simp only [Fake.orElse]
      split <;> rfl) (fun _ _ => by exact ⟨rfl, rfl⟩) ?_ ?_ ?_
  · intro earlier later grows object found
    exact grows.2.2.2.1 _ object found
  · intro object tables
    exact AList.lookup_insert _
  · intro tables object counters absent
    exact ⟨fun id isThere => isThere, .refl _, .refl _, .insert absent _, .refl _, .refl _⟩

theorem createIssue_steps (repoId : String) (issue : Issue) :
    ∃ work : Work Tables Error Issue, work.Settles ∧
      Steps "issue.create" (fun fake cancelled => fake.createIssue cancelled repoId issue)
        work := by
  refine exists_steps_in issue.validate
    (fun tables => tables.idem.issues.lookup (key "issue.create" [repoId, issue.title]))
    (fun made tables =>
      { tables with
        issues := tables.issues.insert (repoId, made.number) made
        idem := { tables.idem with
          issues := tables.idem.issues.insert (key "issue.create" [repoId, issue.title]) made } })
    (fun _ _ => rfl) (fun fake error isInvalid => by simp only [isInvalid])
    (fun fake isValid => by
      simp only [isValid]
      rfl)
    (fun fake => by
      simp only [Fake.orElse]
      split <;> split <;> rfl) (fun _ _ => by exact ⟨rfl, rfl⟩) ?_ ?_ ?_
  · intro earlier later grows object found
    exact grows.2.2.2.2.1 _ object found
  · intro object tables
    exact AList.lookup_insert _
  · intro tables object counters absent
    exact ⟨fun id isThere => isThere, .refl _, .refl _, .refl _, .insert absent _, .refl _⟩

theorem openPullRequest_steps (repoId : String) (pr : PullRequest) :
    ∃ work : Work Tables Error PullRequest, work.Settles ∧
      Steps "pull.open" (fun fake cancelled => fake.openPullRequest cancelled repoId pr)
        work := by
  refine exists_steps_in pr.validate
    (fun tables => tables.idem.pulls.lookup (Fake.pullKey repoId pr))
    (fun made tables =>
      { tables with
        pulls := tables.pulls.insert (repoId, made.number) made
        idem := { tables.idem with
          pulls := tables.idem.pulls.insert (Fake.pullKey repoId pr) made } })
    (fun _ _ => rfl) (fun fake error isInvalid => by simp only [isInvalid])
    (fun fake isValid => by
      simp only [isValid]
      rfl)
    (fun fake => by
      simp only [Fake.openedPullRequest, Fake.orElse]
      split <;> split <;> rfl) (fun _ _ => by exact ⟨rfl, rfl⟩) ?_ ?_ ?_
  · intro earlier later grows object found
    exact grows.2.2.2.2.2 _ object found
  · intro object tables
    exact AList.lookup_insert _
  · intro tables object counters absent
    exact ⟨fun id isThere => isThere, .refl _, .refl _, .refl _, .refl _, .insert absent _⟩

/-! ## The calls of the manager -/

/-- The part of the world that lasts. -/
def World.part (world : World) : Tables := world.forge.tables

/-- Nothing fails at the steps of a call themselves. -/
structure Faults.Quiet (faults : Faults) : Prop where
  repository : faults.repository = none
  branch : faults.branch = none
  milestone : faults.milestone = none
  issue : faults.issue = none
  pull : faults.pull = none
  sink : faults.sink = none

/-- No failure is pending and nothing fails. -/
def Calm (faults : Faults) (world : World) : Prop :=
  faults.Quiet ∧ ∀ operation, world.forge.pendingFailure operation = none

section Calls

variable {α : Type}

theorem pendingFailure_congr {fake other : Fake} (same : fake.failures = other.failures)
    (operation : String) : fake.pendingFailure operation = other.pendingFailure operation := by
  rw [Fake.pendingFailure, Fake.pendingFailure, same]

/-- A step of the forge that settles is retryable. -/
theorem driveForge_retryable {cancelled : Faults → Option Error} {operation : String}
    {step : Fake → Option Error → Except Error α × Fake}
    (isStep : ∃ work : Work Tables Error α, work.Settles ∧ Steps operation step work)
    (quiet : ∀ faults : Faults, faults.Quiet → cancelled faults = none) :
    Retryable World.part Calm (driveForge cancelled step) := by
  rcases isStep with ⟨work, settles, steps⟩
  refine .of_settles settles ?_ ?_
  · rintro faults world result after ⟨⟩
    exact steps.atomic world.forge (cancelled faults)
  · rintro faults world result after ⟨isQuiet, unfailing⟩ ⟨⟩
    rcases steps.clean world.forge (unfailing operation) with ⟨whole, sameFailures⟩
    rw [quiet faults isQuiet]
    exact ⟨whole, isQuiet, fun other => (pendingFailure_congr sameFailures other).trans (unfailing other)⟩

theorem within_retryable {heading : String} {call : Drive α}
    (retryable : Retryable World.part Calm call) :
    Retryable World.part Calm (within heading call) :=
  retryable.mapError _

end Calls

theorem requireTimestamp_stamp (field : String) (stamp : Stamp) :
    V1.requireTimestamp field stamp.text = .ok () := by
  have nonempty : stamp.text ≠ "" := by
    intro isEmpty
    have parses := stamp.parses
    rw [isEmpty] at parses
    revert parses
    decide
  rw [V1.requireTimestamp, if_neg nonempty, if_pos stamp.parses]

/-- Whether the header of what is exported is valid does not depend on the time. -/
theorem envelope_validate_time (exporter : Exporter) (kind id : String) (first second : Stamp) :
    (exporter.envelope kind id first).validate = (exporter.envelope kind id second).validate := by
  have optional : ∀ (field : String) (stamp : Stamp),
      V1.optionalTimestamp field stamp.text = .ok () := by
    intro field stamp
    rw [V1.optionalTimestamp]
    split
    · rfl
    · exact requireTimestamp_stamp field stamp
  simp only [Exporter.envelope, V1.Envelope.validate, optional, V1.Provenance.validate,
    requireTimestamp_stamp]

theorem issue_validate_header {first second : V1.Envelope} {title type status body milestone : String}
    {severity deferredTo : String} {forgeRef : Option V1.Reference} {links : Option V1.IssueLinks}
    (sameKind : first.kind = second.kind) (sameHeader : first.validate = second.validate) :
    (V1.Issue.mk first title type status severity body milestone forgeRef links deferredTo).validate =
      (V1.Issue.mk second title type status severity body milestone forgeRef links
        deferredTo).validate := by
  simp only [V1.Issue.validate, sameKind, sameHeader]

/-- Whether an issue can be exported, and with what error not, does not depend on the time. -/
theorem exporter_issue_time (exporter : Exporter) (issue : Issue) (first second : Stamp) :
    (exporter.issue first issue).map (fun _ => ()) =
      (exporter.issue second issue).map (fun _ => ()) := by
  have sameKind : (exporter.envelope "issue" issue.id first).kind =
      (exporter.envelope "issue" issue.id second).kind := rfl
  have sameHeader := envelope_validate_time exporter "issue" issue.id first second
  simp only [Exporter.issue, bind, Except.bind, pure, Except.pure,
    issue_validate_header sameKind sameHeader]
  cases issue.validate with
  | error error => rfl
  | ok _ =>
      cases mapIssueState issue.state with
      | error error => rfl
      | ok status =>
          simp only
          split
          · rfl
          · split
            · rfl
            · rfl

def epoch : Stamp := ⟨"1970-01-01T00:00:00Z", by decide⟩

namespace Manager

variable (manager : Manager)

/-- Handing an issue to memory changes nothing of the forge. -/
theorem syncIssue_retryable (issue : Issue) :
    Retryable World.part Calm (manager.syncIssue issue) := by
  cases hasExporter : manager.exporter with
  | none =>
      have isIdle : manager.syncIssue issue = Attempt.check (.ok ()) := by
        funext faults world
        simp only [syncIssue, hasExporter, Attempt.check]
      rw [isIdle]
      exact .check _
  | some exporter =>
      cases sinks : manager.hasSink with
      | false =>
          have isIdle : manager.syncIssue issue = Attempt.check (.ok ()) := by
            funext faults world
            simp only [syncIssue, hasExporter, sinks, Attempt.check]
          rw [isIdle]
          exact .check _
      | true =>
          have settles : Work.Settles (fun tables : Tables =>
              (((exporter.issue epoch issue).map fun _ => ()).mapError
                (·.within "lifecycle: sync issue"), tables)) := by
            constructor
            · rintro tables after raised ends
              exact (Prod.mk.inj ends).2.symm
            · rintro tables after value ends
              rcases Prod.mk.inj ends with ⟨isOk, rfl⟩
              exact ⟨le_rfl, fun later _ => by rw [isOk]⟩
          refine .of_settles settles ?_ ?_
          · intro faults world result after ends
            simp only [syncIssue, hasExporter, sinks] at ends
            have sameTime := exporter_issue_time exporter issue epoch faults.stamp
            cases exported : exporter.issue faults.stamp issue with
            | error error =>
                simp only [exported] at ends
                cases ends
                exact .inr ⟨⟨_, rfl⟩, rfl⟩
            | ok record =>
                simp only [exported] at ends sameTime
                cases fails : faults.sink with
                | some error =>
                    simp only [fails] at ends
                    cases ends
                    exact .inr ⟨⟨_, rfl⟩, rfl⟩
                | none =>
                    simp only [fails] at ends
                    cases ends
                    left
                    simp only [sameTime]
                    rfl
          · intro faults world result after isCalm ends
            simp only [syncIssue, hasExporter, sinks, isCalm.1.sink] at ends
            have sameTime := exporter_issue_time exporter issue epoch faults.stamp
            cases exported : exporter.issue faults.stamp issue with
            | error error =>
                simp only [exported] at ends sameTime
                cases ends
                simp only [sameTime]
                exact ⟨rfl, isCalm⟩
            | ok record =>
                simp only [exported] at ends sameTime
                cases ends
                simp only [sameTime]
                exact ⟨rfl, isCalm⟩

theorem createTrackingIssue_retryable (repo : Repository) (spec : PhaseSpec)
    (milestoneId : String) :
    Retryable World.part Calm (manager.createTrackingIssue repo spec milestoneId) := by
  refine .bind (within_retryable (driveForge_retryable (createIssue_steps _ _) fun _ quiet => quiet.issue))
    fun issue => ?_
  exact .bind (manager.syncIssue_retryable issue) fun _ => .pure issue

theorem startPhase_retryable (spec : PhaseSpec) :
    Retryable World.part Calm (manager.startPhase spec) := by
  refine .bind (.check _) fun _ => .bind (.check _) fun _ => ?_
  refine .bind (within_retryable (driveForge_retryable (createRepository_steps _)
    fun _ quiet => quiet.repository)) fun repo => ?_
  refine .bind (within_retryable (driveForge_retryable (createBranch_steps _ _)
    fun _ quiet => quiet.branch)) fun _ => ?_
  refine .bind (within_retryable (driveForge_retryable (createMilestone_steps _ _)
    fun _ quiet => quiet.milestone)) fun milestone => ?_
  refine .bind (manager.createTrackingIssue_retryable repo spec milestone.id) fun issue => ?_
  refine .bind (within_retryable (driveForge_retryable (openPullRequest_steps _ _)
    fun _ quiet => quiet.pull)) fun pr => ?_
  exact .pure _

/-- Calls of `StartPhase` with one spec, one after another until one succeeds, with failures
injected before each and met on the way. -/
def startUntilDone (spec : PhaseSpec) (schedule : List Faults) (world : World) :
    Option Phase × World :=
  (manager.startPhase spec).retry World.meanwhile schedule world

/-- A call that meets no failure. -/
def startUndisturbed (spec : PhaseSpec) (stamp : Stamp) (world : World) :
    Except Error Phase × World :=
  manager.startPhase spec { stamp := stamp }
    { world with forge := { world.forge with failures := ∅ } }

/-- Two forges hold the same repositories, branches, milestones, issues and pull requests. -/
structure SameObjects (first second : Fake) : Prop where
  repos : first.repos = second.repos
  branches : first.branches = second.branches
  milestones : first.milestones = second.milestones
  issues : first.issues = second.issues
  pulls : first.pulls = second.pulls

theorem SameObjects.of_tables {first second : Fake} (same : first.tables = second.tables) :
    SameObjects first second :=
  ⟨congrArg Tables.repos same, congrArg Tables.branches same, congrArg Tables.milestones same,
    congrArg Tables.issues same, congrArg Tables.pulls same⟩

theorem meanwhile_part (faults : Faults) (world : World) :
    (world.meanwhile faults).part = world.part := by
  have injects : ∀ (injected : List (String × ℤ × Error)) (fake : Fake),
      (injected.foldl (fun fake injection => fake.inject injection.1 injection.2.1 injection.2.2)
        fake).tables = fake.tables := by
    intro injected
    induction injected with
    | nil => exact fun _ => rfl
    | cons injection rest ih => exact fun fake => ih _
  exact injects faults.injected world.forge

/-- Calls until one succeeds give the phase and the objects that one undisturbed call gives; and
where that one succeeds, an undisturbed call after failed ones succeeds with the same phase. -/
theorem startPhase_retry_safe (spec : PhaseSpec) (schedule : List Faults) (stamp : Stamp)
    (world : World) :
    (∀ phase after, manager.startUntilDone spec schedule world = (some phase, after) →
      (manager.startUndisturbed spec stamp world).1 = .ok phase ∧
        SameObjects after.forge (manager.startUndisturbed spec stamp world).2.forge) ∧
    ∀ phase after, (manager.startUndisturbed spec stamp world).1 = .ok phase →
      manager.startUntilDone spec schedule world = (none, after) →
        (manager.startUndisturbed spec stamp after).1 = .ok phase ∧
          SameObjects (manager.startUndisturbed spec stamp after).2.forge
            (manager.startUndisturbed spec stamp world).2.forge := by
  rcases manager.startPhase_retryable spec with ⟨work, attempts⟩
  have undisturbed : ∀ world : World, work world.part =
      ((manager.startUndisturbed spec stamp world).1,
        (manager.startUndisturbed spec stamp world).2.part) := by
    intro world
    have isCalm : Calm { stamp := stamp }
        { world with forge := { world.forge with failures := ∅ } } :=
      ⟨⟨rfl, rfl, rfl, rfl, rfl, rfl⟩, fun _ => rfl⟩
    exact (attempts.calm isCalm rfl).1
  constructor
  · intro phase after ends
    have whole := (attempts.retry_spec meanwhile_part ends).1 phase rfl
    rw [undisturbed] at whole
    rcases Prod.mk.inj whole with ⟨isPhase, sameTables⟩
    exact ⟨isPhase, .of_tables sameTables.symm⟩
  · intro phase after succeeds ends
    have same := (attempts.retry_spec meanwhile_part ends).2 rfl
    rw [undisturbed, undisturbed, succeeds] at same
    rcases Prod.mk.inj same with ⟨isPhase, sameTables⟩
    exact ⟨isPhase, .of_tables sameTables⟩

end Manager

end Aa.Forge
