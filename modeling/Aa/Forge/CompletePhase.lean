import Aa.Forge.StartPhase
import Aa.Forge.MergeGate

/-!
# Completing a phase is not repeatable

`CompletePhase` records a checkpoint, updates the pull request of the phase and merges it. An
update refuses a merged pull request, so that once the pull request is merged every further
call is an error: also where the reply to the merge was lost, and although the merge itself
would replay. The forge stores each pull request under its own number, which is why the pull
request that a successful call merged is the one that the next call updates.
-/

namespace Aa.Forge

open Aa.Library Aa.Contracts

/-- Every pull request is stored under its own number. -/
def Numbered (pulls : Pulls) : Prop :=
  ∀ slot pr, pulls.lookup slot = some pr → pr.number = slot.2

theorem Numbered.insert {pulls : Pulls} {slot : String × ℤ} {pr : PullRequest}
    (numbered : Numbered pulls) (own : pr.number = slot.2) : Numbered (pulls.insert slot pr) := by
  intro other stored found
  by_cases same : other = slot
  · subst same
    rw [AList.lookup_insert] at found
    cases found
    exact own
  · rw [AList.lookup_insert_ne same] at found
    exact numbered other stored found

namespace Fake

/-- What a successful update found and wrote. -/
theorem updatePullRequest_ok {fake after : Fake} {cancelled : Option Error} {repoId : String}
    {pr updated : PullRequest}
    (succeeds : fake.updatePullRequest cancelled repoId pr = (.ok updated, after)) :
    ∃ current, fake.pulls.lookup (repoId, pr.number) = some current ∧ current.state ≠ "merged" ∧
      updated = updatedPullRequest current pr ∧
      after.pulls = fake.pulls.insert (repoId, pr.number) updated := by
  unfold updatePullRequest unlessCancelled at succeeds
  split at succeeds
  · cases succeeds
  · split at succeeds
    · cases succeeds
    · rename_i current found
      split at succeeds
      · cases succeeds
      · rename_i unmerged
        cases succeeds
        exact ⟨current, found, unmerged, rfl, rfl⟩

/-- An update writes nothing, or the fields of a stored pull request, under its number. -/
theorem updatePullRequest_numbered {fake : Fake} (numbered : Numbered fake.pulls)
    (cancelled : Option Error) (repoId : String) (pr : PullRequest) :
    Numbered (fake.updatePullRequest cancelled repoId pr).2.pulls := by
  cases ends : fake.updatePullRequest cancelled repoId pr with
  | mk result after =>
      cases result with
      | ok updated =>
          rcases updatePullRequest_ok ends with ⟨current, found, -, rfl, written⟩
          change Numbered after.pulls
          rw [written]
          exact numbered.insert (numbered _ current found)
      | error error =>
          rcases fake.updatePullRequest_pulls cancelled repoId pr with
            ⟨updates, -⟩ | ⟨-, same⟩
          · rcases updates with ⟨rfl, current, found, unmerged⟩
            simp [updatePullRequest, unlessCancelled, found, unmerged] at ends
          · rw [ends] at same
            rwa [same]

/-- What a successful merge found and left. -/
theorem mergePullRequest_ok {fake after : Fake} {cancelled : Option Error} {repoId : String}
    {number : ℤ} {approval : MergeApproval} {merged : PullRequest}
    (succeeds : fake.mergePullRequest cancelled repoId number approval = (.ok merged, after)) :
    (∃ current, fake.pulls.lookup (repoId, number) = some current ∧
        merged.number = current.number) ∧
      after.pulls.lookup (repoId, number) = some merged ∧ merged.state = "merged" := by
  unfold mergePullRequest unlessCancelled at succeeds
  split at succeeds
  · cases succeeds
  · split at succeeds
    · cases succeeds
    · rename_i current found
      split at succeeds
      · cases succeeds
      · simp only at succeeds
        split at succeeds
        · rename_i isMerged
          cases succeeds
          exact ⟨⟨_, found, rfl⟩, found, isMerged⟩
        · split at succeeds
          · cases succeeds
          · cases succeeds
            exact ⟨⟨current, found, rfl⟩, AList.lookup_insert _, rfl⟩

theorem mergePullRequest_numbered {fake : Fake} (numbered : Numbered fake.pulls)
    (cancelled : Option Error) (repoId : String) (number : ℤ) (approval : MergeApproval) :
    Numbered (fake.mergePullRequest cancelled repoId number approval).2.pulls := by
  rcases fake.mergePullRequest_pulls cancelled repoId number approval with
    ⟨merges, merged, succeeded, written, -⟩ | ⟨-, same⟩
  · rcases mergePullRequest_ok (Prod.ext succeeded rfl) with ⟨⟨current, found, own⟩, -⟩
    rw [written]
    exact numbered.insert (own.trans (numbered _ current found))
  · rwa [same]

theorem openPullRequest_numbered {fake : Fake} (numbered : Numbered fake.pulls)
    (repoId : String) (pr : PullRequest) :
    Numbered (fake.pulls.insert (repoId, fake.openedNumber repoId pr)
      (openedPullRequest repoId pr fake).1) :=
  numbered.insert (openedPullRequest_number fake repoId pr)

end Fake

/-- Every call keeps the pull requests under their numbers. -/
theorem perform_numbered {service : Rpc.Service} (numbered : Numbered service.state.pulls)
    (cancelled : Option Error) (call : Call) :
    Numbered (perform service cancelled call).1.state.pulls := by
  by_cases opening : ∃ repoId pr, Asks service call repoId pr ∧
      service.state.Opens cancelled repoId pr
  · rcases opening with ⟨repoId, pr, asks, opens⟩
    rw [perform_pulls_of_opens asks opens]
    exact Fake.openPullRequest_numbered numbered repoId pr
  · by_cases updating : ∃ repoId pr, call = .updatePullRequest repoId pr
    · rcases updating with ⟨repoId, pr, rfl⟩
      exact Fake.updatePullRequest_numbered numbered cancelled repoId pr
    · by_cases merging : ∃ repoId number approval,
          call = .mergePullRequest repoId number approval
      · rcases merging with ⟨repoId, number, approval, rfl⟩
        exact Fake.mergePullRequest_numbered numbered cancelled repoId number approval
      · rw [perform_pulls_of_idle]
        · exact numbered
        · intro repoId pr asks opens
          exact opening ⟨repoId, pr, asks, opens⟩
        · intro repoId pr isUpdate
          exact absurd ⟨repoId, pr, isUpdate⟩ updating
        · intro repoId number approval isMerge
          exact absurd ⟨repoId, number, approval, isMerge⟩ merging

/-- In every run of a new forge the pull requests are stored under their numbers. -/
theorem run_numbered (clock : ℕ → Time) (inputs : List (Option Error × Call)) :
    Numbered (machine.run (Rpc.new { clock := clock }) inputs).state.pulls := by
  let invariant (service : Rpc.Service) : Prop := Numbered service.state.pulls
  have preserved : ∀ service input, invariant service →
      invariant (machine.step service input).1 :=
    fun service input numbered => perform_numbered numbered input.1 input.2
  refine machine.run_invariant preserved ?_
  intro slot pr found
  simp [Rpc.new] at found

namespace World

/-- The pull requests of the forge are stored under their numbers. -/
def Numbered (world : World) : Prop := Forge.Numbered world.forge.pulls

/-- The same world without pending failures. -/
def unfailing (world : World) : World :=
  { world with forge := { world.forge with failures := ∅ } }

theorem meanwhile_pulls (faults : Faults) (world : World) :
    (world.meanwhile faults).forge.pulls = world.forge.pulls :=
  congrArg Tables.pulls (Manager.meanwhile_part faults world)

end World

theorem driveForge_keeps {α : Type} {cancelled : Faults → Option Error}
    {step : Fake → Option Error → Except Error α × Fake}
    (keeps : ∀ fake cancelled, Numbered fake.pulls → Numbered (step fake cancelled).2.pulls) :
    Attempt.Keeps World.Numbered (driveForge cancelled step) :=
  fun faults world numbered => keeps world.forge (cancelled faults) numbered

theorem driveForge_ok {α : Type} {cancelled : Faults → Option Error}
    {step : Fake → Option Error → Except Error α × Fake} {faults : Faults} {world after : World}
    {value : α} (succeeds : driveForge cancelled step faults world = (.ok value, after)) :
    step world.forge (cancelled faults) = (.ok value, after.forge) := by
  rcases Prod.mk.inj succeeds with ⟨result, rfl⟩
  exact Prod.ext result rfl

theorem reported_keeps {α : Type} {failure : Faults → Option Error} {call : Drive α}
    (keeps : Attempt.Keeps World.Numbered call) :
    Attempt.Keeps World.Numbered (reported failure call) := by
  intro faults world numbered
  have after := keeps faults world numbered
  unfold reported
  split
  · rename_i ends _
    rwa [ends] at after
  · exact after

theorem ok_of_reported {α : Type} {failure : Faults → Option Error} {call : Drive α}
    {faults : Faults} {world after : World} {value : α}
    (succeeds : reported failure call faults world = (.ok value, after)) :
    call faults world = (.ok value, after) := by
  unfold reported at succeeds
  split at succeeds
  · cases succeeds
  · exact succeeds

namespace Manager

variable (manager : Manager)

theorem syncCheckpoint_forge (checkpoint : Checkpoint) (faults : Faults) (world : World) :
    (manager.syncCheckpoint checkpoint faults world).2.forge = world.forge := by
  unfold syncCheckpoint
  split
  · split
    · rfl
    · split <;> rfl
  · rfl

/-- A checkpoint writes no pull request. -/
theorem checkpoint_pulls (phase : Phase) (commit : String) (issues prs : List Ref)
    (faults : Faults) (world : World) :
    (manager.checkpoint phase commit issues prs faults world).2.forge.pulls =
      world.forge.pulls := by
  have keeps : Attempt.Keeps (fun after : World => after.forge.pulls = world.forge.pulls)
      (manager.checkpoint phase commit issues prs) := by
    refine .bind (.mapError _ ?_) fun checkpoint => .bind ?_ fun _ => .pure checkpoint
    · intro faults before same
      exact (Fake.createCheckpoint_pulls _ _ _ _).trans same
    · intro faults before same
      rwa [syncCheckpoint_forge]
  exact keeps faults world rfl

theorem completePhase_keeps (phase : Phase) (commit : String) (approval : MergeApproval) :
    Attempt.Keeps World.Numbered (manager.completePhase phase commit approval) := by
  unfold completePhase
  split
  · exact .check _
  · refine .bind ?_ fun _ => .bind ?_ fun ready => ?_
    · intro faults world numbered
      unfold World.Numbered
      rwa [checkpoint_pulls]
    · exact driveForge_keeps fun fake cancelled numbered =>
        Fake.updatePullRequest_numbered numbered cancelled _ _
    · exact reported_keeps (driveForge_keeps fun fake cancelled numbered =>
        Fake.mergePullRequest_numbered numbered cancelled _ _ _)

/-- A successful call found the pull request of the phase unmerged and merged it. -/
theorem completePhase_ok {phase : Phase} {commit : String} {approval : MergeApproval}
    {faults : Faults} {world after : World} {merged : PullRequest}
    (numbered : world.Numbered)
    (succeeds : manager.completePhase phase commit approval faults world = (.ok merged, after)) :
    ¬ IsMerged world.forge.pulls (phase.repo.id, phase.phasePR.number) ∧
      IsMerged after.forge.pulls (phase.repo.id, phase.phasePR.number) := by
  unfold completePhase at succeeds
  split at succeeds
  · cases succeeds
  · rcases Attempt.ok_of_bind succeeds with ⟨_, recorded, ends, rest⟩
    have samePulls := manager.checkpoint_pulls phase commit [refIssue phase.trackingIssue]
      [refPR phase.phasePR] faults world
    rw [ends] at samePulls
    rcases Attempt.ok_of_bind rest with ⟨ready, updated, updates, merges⟩
    rcases Fake.updatePullRequest_ok (driveForge_ok updates) with ⟨current, found, unmerged, rfl, written⟩
    -- the number of the updated pull request is that of its slot
    have own : current.number = phase.phasePR.number := by
      rw [samePulls] at found
      exact numbered _ current found
    constructor
    · rintro ⟨other, otherFound, otherMerged⟩
      rw [← samePulls] at otherFound
      have same : current = other := Option.some.inj (found.symm.trans otherFound)
      exact unmerged (same ▸ otherMerged)
    · rcases Fake.mergePullRequest_ok (driveForge_ok (ok_of_reported merges)) with
        ⟨-, stored, isMerged⟩
      rw [← own]
      exact ⟨merged, stored, isMerged⟩

/-- After a pull request was merged no call is successful. -/
theorem completePhase_of_merged {phase : Phase} {commit : String} {approval : MergeApproval}
    {world : World} (numbered : world.Numbered)
    (merged : IsMerged world.forge.pulls (phase.repo.id, phase.phasePR.number)) (faults : Faults) :
    ∃ error, (manager.completePhase phase commit approval faults world).1 = .error error := by
  cases ends : manager.completePhase phase commit approval faults world with
  | mk result after =>
      cases result with
      | ok pr => exact absurd merged (manager.completePhase_ok numbered ends).1
      | error error => exact ⟨error, rfl⟩

/-- Calls of `CompletePhase` with the same arguments, one after another until one succeeds. The
failures are those of the schedule: injected before each call or met on the way. -/
def completeUntilDone (phase : Phase) (commit : String) (approval : MergeApproval)
    (schedule : List Faults) (world : World) : Option PullRequest × World :=
  (manager.completePhase phase commit approval).retry World.meanwhile schedule world.unfailing

/-- A call that meets no failure. -/
def completeUndisturbed (phase : Phase) (commit : String) (approval : MergeApproval)
    (stamp : Stamp) (world : World) : Except Error PullRequest × World :=
  manager.completePhase phase commit approval { stamp := stamp } world.unfailing

/-- Once a call has succeeded a further call succeeds with the same pull request, and after
failed calls one that meets no failure yields the merged pull request. -/
structure CompleteRetrySafe (phase : Phase) (commit : String) (approval : MergeApproval)
    (world : World) : Prop where
  again : ∀ schedule stamp pr after,
    manager.completeUntilDone phase commit approval schedule world = (some pr, after) →
      (manager.completeUndisturbed phase commit approval stamp after).1 = .ok pr
  eventually : ∀ schedule stamp after,
    manager.completeUntilDone phase commit approval schedule world = (none, after) →
      ∃ pr, (manager.completeUndisturbed phase commit approval stamp after).1 = .ok pr ∧
        pr.state = "merged"

/-- Where a call has succeeded, every further call is an error. -/
theorem further_calls_fail {phase : Phase} {commit : String} {approval : MergeApproval}
    {schedule : List Faults} {world after : World} {pr : PullRequest} (numbered : world.Numbered)
    (succeeds : manager.completeUntilDone phase commit approval schedule world = (some pr, after))
    {later : World} (samePulls : later.forge.pulls = after.forge.pulls) (faults : Faults) :
    ∃ error, (manager.completePhase phase commit approval faults later).1 = .error error := by
  have apart : ∀ (faults : Faults) (world : World), world.Numbered →
      (world.meanwhile faults).Numbered := by
    intro faults world numbered
    unfold World.Numbered
    rwa [World.meanwhile_pulls]
  have start : world.unfailing.Numbered := numbered
  rcases (manager.completePhase_keeps phase commit approval).of_retry apart start succeeds with
    ⟨last, before, numberedBefore, lastSucceeds⟩
  have merged := (manager.completePhase_ok numberedBefore lastSucceeds).2
  have numberedAfter := manager.completePhase_keeps phase commit approval last before numberedBefore
  rw [lastSucceeds] at numberedAfter
  refine manager.completePhase_of_merged ?_ ?_ faults
  · unfold World.Numbered
    rwa [samePulls]
  · rwa [samePulls]

/-- Completing a phase of a forge that some run has led to is never retry-safe: where a call has
succeeded, every further call fails. -/
theorem completePhase_not_retrySafe (clock : ℕ → Time) (inputs : List (Option Error × Call))
    (received : List V1.Issue) (records : List V1.MemoryRecord) (phase : Phase) (commit : String)
    (approval : MergeApproval) :
    let world : World :=
      ⟨(machine.run (Rpc.new { clock := clock }) inputs).state, received, records⟩
    ¬ manager.CompleteRetrySafe phase commit approval world ∧
      ∀ schedule pr after,
        manager.completeUntilDone phase commit approval schedule world = (some pr, after) →
          ∀ faults, ∃ error, (manager.completePhase phase commit approval faults
            (after.meanwhile faults)).1 = .error error := by
  intro world
  have numbered : world.Numbered := run_numbered clock inputs
  constructor
  · intro safe
    -- the first undisturbed call must succeed, and then the second one must too
    rcases safe.eventually [] epoch world.unfailing rfl with ⟨pr, succeeds, -⟩
    cases ends : manager.completeUndisturbed phase commit approval epoch world with
    | mk result after =>
        have result_eq : result = .ok pr := (congrArg Prod.fst ends).symm.trans succeeds
        subst result_eq
        have done : manager.completeUntilDone phase commit approval [{ stamp := epoch }] world =
            (some pr, after) := by
          have once : manager.completePhase phase commit approval { stamp := epoch }
            (world.unfailing.meanwhile { stamp := epoch }) = (.ok pr, after) := ends
          simp only [completeUntilDone, Attempt.retry, once]
        have samePulls : after.unfailing.forge.pulls = after.forge.pulls := rfl
        rcases manager.further_calls_fail numbered done samePulls { stamp := epoch } with
          ⟨error, fails⟩
        have repeats := safe.again _ epoch pr after done
        cases repeats.symm.trans fails
  · intro schedule pr after succeeds faults
    exact manager.further_calls_fail numbered succeeds (World.meanwhile_pulls faults after) faults

def coreSpec : PhaseSpec :=
  { repository := { owner := "greadee", name := "aa" }, number := 1, scope := "core"
    objective := "core", milestone := "" }

/-- A new phase that is completed, and whose second completion meets the conflict. -/
theorem completePhase_repeat_conflicts :
    ∃ phase started pr merged,
      startPhase {} coreSpec { stamp := epoch } { forge := { clock := fun _ => zeroTime } } =
          (.ok phase, started) ∧
        completeUntilDone {} phase "c0ffee" { actor := "human" } [{ stamp := epoch }] started =
          (some pr, merged) ∧
        (completeUndisturbed {} phase "c0ffee" { actor := "human" } epoch merged).1 =
          .error (.wrap .conflict "pull request 1 is already merged") ∧
        ¬ CompleteRetrySafe {} phase "c0ffee" { actor := "human" } started := by
  refine ⟨_, _, _, _, rfl, rfl, rfl, ?_⟩
  intro safe
  have repeats := safe.again [{ stamp := epoch }] epoch _ _ rfl
  cases repeats

end Manager

end Aa.Forge
