import Aa.Sifter.App

/-!
# Verifiers

A composite verifier runs its verifiers one after another and passes if every check that any of
them reports passed. What the verifiers say of themselves is not read, so a composite is the
conjunction of its leaves only where their checks tell the same.
-/

namespace Aa.Sifter

open Aa.Library

/-- A verifier of some kind, given by what it returns for an answer in a directory, or a
composite of verifiers. -/
inductive Verifier where
  | leaf (verify : String → Option String → VerificationResult)
  | composite (verifiers : List Verifier)

namespace Verifier

/-- `all(c.passed for c in checks)`. -/
def allPassed (checks : List VerificationCheck) : Bool :=
  checks.all fun check => check.passed

mutual

def verify (answer : String) (workdir : Option String) : Verifier → VerificationResult
  | .leaf verify => verify answer workdir
  | .composite [] => { passed := true }
  | .composite (verifier :: verifiers) =>
      let checks := collected answer workdir (verifier :: verifiers)
      { passed := if checks.isEmpty then true else allPassed checks, checks := checks }

/-- The checks of the verifiers of a composite, one after another. -/
def collected (answer : String) (workdir : Option String) :
    List Verifier → List VerificationCheck
  | [] => []
  | verifier :: verifiers =>
      (verifier.verify answer workdir).checks ++ collected answer workdir verifiers

end

/-! ## The kinds of leaves -/

def null : Verifier := .leaf fun _ _ => { passed := true }

/-- What the verifiers read of the result of a command. -/
structure CommandResult where
  exitCode : ℤ
  timedOut : Bool := false

def CommandResult.passed (result : CommandResult) : Bool :=
  result.exitCode = 0 && !result.timedOut

/-- `workdir or cwd`. -/
def directory (workdir cwd : Option String) : Option String :=
  if workdir = none ∨ workdir = some "" then cwd else workdir

/-- Objective checks such as tests or a build; `runCommand` runs a command in a directory. -/
def command (runCommand : String → Option String → CommandResult) (commands : List String)
    (cwd : Option String) : Verifier :=
  .leaf fun _ workdir =>
    let checks := commands.map fun command =>
      { name := command, passed := (runCommand command (directory workdir cwd)).passed }
    { passed := if checks.isEmpty then true else allPassed checks, checks := checks }

/-- The files expected under a directory; `exist` tells whether a file of a directory is there. -/
def fileChange (exist : Option String → String → Bool) (expectedFiles : List String)
    (root : Option String) : Verifier :=
  .leaf fun _ workdir =>
    let checks := expectedFiles.map fun name =>
      { name := "exists:" ++ name, passed := exist (directory workdir root) name }
    { passed := allPassed checks, checks := checks }

/-- One check made by a function of the answer. -/
def callable (name : String) (validator : String → Bool) : Verifier :=
  .leaf fun answer _ =>
    { passed := validator answer, checks := [{ name := name, passed := validator answer }] }

/-! ## The leaves of a composite -/

mutual

/-- The results of the leaves of a verifier, in order. -/
def leaves (answer : String) (workdir : Option String) : Verifier → List VerificationResult
  | .leaf verify => [verify answer workdir]
  | .composite verifiers => leavesOf answer workdir verifiers

def leavesOf (answer : String) (workdir : Option String) :
    List Verifier → List VerificationResult
  | [] => []
  | verifier :: verifiers =>
      verifier.leaves answer workdir ++ leavesOf answer workdir verifiers

end

/-- The checks of results, one after another. -/
def checksOf (results : List VerificationResult) : List VerificationCheck :=
  results.flatMap VerificationResult.checks

section Leaves

variable {answer : String} {workdir : Option String}

mutual

/-- A verifier reports the checks of its leaves. -/
theorem verify_checks (verifier : Verifier) :
    (verifier.verify answer workdir).checks = checksOf (verifier.leaves answer workdir) := by
  cases verifier with
  | leaf verify => simp [Verifier.verify, leaves, checksOf]
  | composite verifiers =>
      cases verifiers with
      | nil => rfl
      | cons verifier verifiers =>
          rw [Verifier.verify, leaves]
          exact collected_eq (verifier :: verifiers)

theorem collected_eq (verifiers : List Verifier) :
    collected answer workdir verifiers = checksOf (leavesOf answer workdir verifiers) := by
  cases verifiers with
  | nil => rfl
  | cons verifier verifiers =>
      have first := verify_checks verifier
      have rest := collected_eq verifiers
      rw [collected, leavesOf, first, rest]
      simp [checksOf]

end

/-- A composite passes exactly if every check of its leaves passed. -/
theorem composite_passed (verifiers : List Verifier) :
    ((Verifier.composite verifiers).verify answer workdir).passed = true ↔
      ∀ leaf ∈ (Verifier.composite verifiers).leaves answer workdir,
        ∀ check ∈ leaf.checks, check.passed = true := by
  have checked : allPassed (checksOf ((Verifier.composite verifiers).leaves answer workdir)) = true ↔
      ∀ leaf ∈ (Verifier.composite verifiers).leaves answer workdir,
        ∀ check ∈ leaf.checks, check.passed = true := by
    simp only [allPassed, checksOf, List.all_eq_true, List.mem_flatMap]
    constructor
    · intro passed leaf isLeaf check isCheck
      exact passed check ⟨leaf, isLeaf, isCheck⟩
    · rintro passed check ⟨leaf, isLeaf, isCheck⟩
      exact passed leaf isLeaf check isCheck
  rw [← checked, leaves, ← collected_eq]
  cases verifiers with
  | nil => simp [Verifier.verify, collected, allPassed]
  | cons verifier verifiers =>
      simp only [Verifier.verify]
      split
      · rename_i noCheck
        simp [List.isEmpty_iff.mp noCheck, allPassed]
      · rfl

end Leaves

/-! ## Conjunctions -/

/-- The composite passes exactly if all its leaves do, however the same leaves are nested and
ordered. -/
structure Conjoins (verifiers : List Verifier) (answer : String) (workdir : Option String) :
    Prop where
  passed_iff : ((Verifier.composite verifiers).verify answer workdir).passed = true ↔
    ∀ leaf ∈ (Verifier.composite verifiers).leaves answer workdir, leaf.passed = true
  arranged : ∀ others : List Verifier,
    ((Verifier.composite others).leaves answer workdir).Perm
      ((Verifier.composite verifiers).leaves answer workdir) →
    ((Verifier.composite others).verify answer workdir).passed =
      ((Verifier.composite verifiers).verify answer workdir).passed

/-- A composite is the conjunction of its leaves exactly if some leaf fails where some check of a
leaf failed, and only there. -/
theorem conjoins_iff (verifiers : List Verifier) (answer : String) (workdir : Option String) :
    Conjoins verifiers answer workdir ↔
      ((∃ leaf ∈ (Verifier.composite verifiers).leaves answer workdir, leaf.passed = false) ↔
        ∃ leaf ∈ (Verifier.composite verifiers).leaves answer workdir,
          ∃ check ∈ leaf.checks, check.passed = false) := by
  have someFailed : (∃ leaf ∈ (Verifier.composite verifiers).leaves answer workdir,
      ∃ check ∈ leaf.checks, check.passed = false) ↔
      ¬ ((Verifier.composite verifiers).verify answer workdir).passed = true := by
    rw [composite_passed]
    push Not
    simp
  have someFails : (∃ leaf ∈ (Verifier.composite verifiers).leaves answer workdir,
      leaf.passed = false) ↔
      ¬ ∀ leaf ∈ (Verifier.composite verifiers).leaves answer workdir, leaf.passed = true := by
    push Not
    simp
  rw [someFailed, someFails, not_iff_not]
  constructor
  · intro conjoins
    exact conjoins.passed_iff.symm
  · intro agree
    refine ⟨agree.symm, fun others arranged => ?_⟩
    rw [Bool.eq_iff_iff, composite_passed, composite_passed]
    constructor
    · intro passed leaf isLeaf
      exact passed leaf (arranged.mem_iff.mpr isLeaf)
    · intro passed leaf isLeaf
      exact passed leaf (arranged.mem_iff.mp isLeaf)

/-- A verifier that rejects every answer without naming a check. -/
def rejecting : Verifier := .leaf fun _ _ => { passed := false }

/-- A composite passes what its only verifier rejects. -/
theorem rejecting_not_conjoined : ¬ Conjoins [rejecting] "answer" none := by
  intro conjoins
  have rejected := conjoins.passed_iff.mp rfl { passed := false } (by simp [leaves, leavesOf, rejecting])
  cases rejected

/-- What a leaf says of itself is what its checks say. -/
def Consistent (result : VerificationResult) : Prop :=
  result.passed = allPassed result.checks

theorem null_consistent (answer : String) (workdir : Option String) :
    Consistent (null.verify answer workdir) := rfl

theorem command_consistent (runCommand : String → Option String → CommandResult)
    (commands : List String) (cwd : Option String) (answer : String) (workdir : Option String) :
    Consistent ((command runCommand commands cwd).verify answer workdir) := by
  simp only [Consistent, command, Verifier.verify]
  split
  · rename_i noCheck
    rw [List.isEmpty_iff.mp noCheck]
    rfl
  · rfl

theorem fileChange_consistent (exist : Option String → String → Bool)
    (expectedFiles : List String) (root : Option String) (answer : String)
    (workdir : Option String) :
    Consistent ((fileChange exist expectedFiles root).verify answer workdir) := rfl

theorem callable_consistent (name : String) (validator : String → Bool) (answer : String)
    (workdir : Option String) :
    Consistent ((callable name validator).verify answer workdir) := by
  simp [Consistent, callable, Verifier.verify, allPassed]

/-- A composite is consistent, so it may stand for a leaf of another. -/
theorem composite_consistent (verifiers : List Verifier) (answer : String)
    (workdir : Option String) :
    Consistent ((Verifier.composite verifiers).verify answer workdir) := by
  rw [Consistent, Bool.eq_iff_iff, composite_passed, verify_checks]
  simp only [allPassed, checksOf, List.all_eq_true, List.mem_flatMap]
  constructor
  · rintro passed check ⟨leaf, isLeaf, isCheck⟩
    exact passed leaf isLeaf check isCheck
  · intro passed leaf isLeaf check isCheck
    exact passed check ⟨leaf, isLeaf, isCheck⟩

/-- Over consistent leaves a composite is their conjunction. -/
theorem composite_passed_of_consistent {verifiers : List Verifier} {answer : String}
    {workdir : Option String}
    (consistent : ∀ leaf ∈ (Verifier.composite verifiers).leaves answer workdir, Consistent leaf) :
    ((Verifier.composite verifiers).verify answer workdir).passed = true ↔
      ∀ leaf ∈ (Verifier.composite verifiers).leaves answer workdir, leaf.passed = true := by
  rw [composite_passed]
  refine forall₂_congr fun leaf isLeaf => ?_
  rw [consistent leaf isLeaf, allPassed, List.all_eq_true]

end Verifier

end Aa.Sifter
