import Mathlib.Data.Prod.Lex
import Mathlib.Data.String.Basic
import Aa.Library.Register
import Aa.Sync.Types

/-!
# The offline change queue and reconciliation

Changes are ordered by their record revision. When two replicas reconnect, each decides
which changes to send and which to apply from its own and the other's list. What a list
says of one path is a ranked register, so the two decisions are compared path by path.
-/

set_option linter.dupNamespace false

namespace Aa.Sync.Queue

open Aa.Library

/-- A revision observed on a node. -/
structure Change where
  record : RevisionRecord
  node : NodeId := ""
deriving DecidableEq

/-- An offline set of local changes, newest per path. -/
abbrev Queue := GoMap String Change

def newer (a b : Change) : Bool :=
  if a.record.revision ≠ b.record.revision then a.record.revision > b.record.revision
  else a.node > b.node

/-- Puts a change under its path unless the one there is as new. -/
def keepNewest (changes : Queue) (c : Change) : Queue :=
  match changes.lookup c.record.path with
  | some existing => if newer c existing then changes.insert c.record.path c else changes
  | none => changes.insert c.record.path c

/-- Adds a change; for a path the higher revision wins, then the higher node. -/
def enqueue (queue : Queue) (c : Change) : Except Error Queue :=
  if c.record.path = "" then .error (.wrap .invalid "path is required")
  else .ok (keepNewest queue c)

/-- The queued changes sorted by path. -/
def pending (queue : Queue) : List Change :=
  (queue.entries.map Sigma.snd).mergeSort fun first second =>
    decide (first.record.path ≤ second.record.path)

/-- The pending changes, and the queue without them. -/
def drain (queue : Queue) : List Change × Queue := (pending queue, ∅)

/-- A divergence of two replicas at the same revision. -/
structure Conflict where
  path : String
  localChange : Change
  remoteChange : Change
deriving DecidableEq

/-- The outcome of reconciling two lists of changes. -/
structure Decision where
  send : List Change := []
  apply : List Change := []
  converged : List String := []
  conflicts : List Conflict := []
deriving DecidableEq

def same (a b : Change) : Bool :=
  a.record.deleted == b.record.deleted && a.record.hash == b.record.hash

def bestFrom (best : Queue) : List Change → Except Error Queue
  | [] => .ok best
  | c :: rest =>
      if c.record.path = "" then .error (.wrap .invalid "path is required")
      else bestFrom (keepNewest best c) rest

/-- The newest change of each path. -/
def bestByPath (changes : List Change) : Except Error Queue := bestFrom ∅ changes

/-- What is decided about one path. -/
inductive Verdict where
  | send (c : Change)
  | apply (c : Change)
  | converged
  | conflict (localChange remoteChange : Change)
deriving DecidableEq

/-- The cases of the loop in `reconcile`. A path that neither side has stands for two zero
records, which are the same. -/
def verdict : Option Change → Option Change → Verdict
  | some lc, none => .send lc
  | none, some rc => .apply rc
  | some lc, some rc =>
      if lc.record.revision > rc.record.revision then .send lc
      else if rc.record.revision > lc.record.revision then .apply rc
      else if same lc rc then .converged
      else .conflict lc rc
  | none, none => .converged

def Decision.add (d : Decision) (path : String) : Verdict → Decision
  | .send c => { d with send := d.send ++ [c] }
  | .apply c => { d with apply := d.apply ++ [c] }
  | .converged => { d with converged := d.converged ++ [path] }
  | .conflict lc rc => { d with conflicts := d.conflicts ++ [⟨path, lc, rc⟩] }

/-- The paths of two maps, sorted. -/
def pathsOf (first second : Queue) : List String :=
  Go.sortStrings (first.keys ∪ second.keys)

/-- Compares local and remote changes and decides what each side should do. -/
def reconcile (locals remotes : List Change) : Except Error Decision :=
  match bestByPath locals with
  | .error error => .error error
  | .ok localBest =>
      match bestByPath remotes with
      | .error error => .error error
      | .ok remoteBest =>
          .ok ((pathsOf localBest remoteBest).foldl
            (fun d path => d.add path (verdict (localBest.lookup path) (remoteBest.lookup path))) {})

/-! ## The best change of a path -/

/-- Revisions are compared first, then nodes. -/
def Change.rank (c : Change) : ℕ ×ₗ String := toLex (c.record.revision, c.node)

theorem newer_iff {a b : Change} : newer a b = true ↔ b.rank < a.rank := by
  simp only [newer, Change.rank, Prod.Lex.toLex_lt_toLex]
  by_cases sameRevision : a.record.revision = b.record.revision
  · simp [sameRevision]
  · simp only [ne_eq, sameRevision, not_false_eq_true, if_true, gt_iff_lt, decide_eq_true_eq]
    have notEq : b.record.revision ≠ a.record.revision := fun isEq => sameRevision isEq.symm
    simp [notEq]

/-- The changes of a list to one path. -/
def on (path : String) (changes : List Change) : List Change :=
  changes.filter fun c => c.record.path = path

/-- The newest change of a list to one path. -/
def best (changes : List Change) (path : String) : Option Change :=
  (Register.ranked Change.rank).offerAll none (on path changes)

theorem lookup_keepNewest (changes : Queue) (c : Change) (path : String) :
    (keepNewest changes c).lookup path =
      if c.record.path = path then
        (Register.ranked Change.rank).offer (changes.lookup path) c
      else changes.lookup path := by
  by_cases isPath : c.record.path = path
  · subst isPath
    rw [if_pos rfl, keepNewest]
    cases isHeld : changes.lookup c.record.path with
    | none => simp [Register.offer]
    | some existing =>
        simp only [Register.offer_ranked, newer_iff]
        by_cases isNewer : existing.rank < c.rank
        · simp [isNewer]
        · simp [isNewer, isHeld]
  · rw [if_neg isPath, keepNewest]
    have otherPath : path ≠ c.record.path := fun isEq => isPath isEq.symm
    cases changes.lookup c.record.path with
    | none => simp [AList.lookup_insert_ne otherPath]
    | some existing =>
        by_cases isNewer : newer c existing
        · simp [isNewer, AList.lookup_insert_ne otherPath]
        · simp [isNewer]

theorem bestFrom_spec {held : Queue} {changes : List Change}
    (named : ∀ c ∈ changes, c.record.path ≠ "") :
    ∃ found, bestFrom held changes = .ok found ∧ ∀ path, found.lookup path =
      (Register.ranked Change.rank).offerAll (held.lookup path) (on path changes) := by
  induction changes generalizing held with
  | nil => exact ⟨held, rfl, fun _ => rfl⟩
  | cons c rest ih =>
      rcases ih fun later isThere => named later (List.mem_cons_of_mem c isThere) with
        ⟨found, isFound, lookups⟩
      refine ⟨found, ?_, fun path => ?_⟩
      · rw [bestFrom, if_neg (named c List.mem_cons_self)]
        exact isFound
      · rw [lookups path, lookup_keepNewest]
        by_cases isPath : c.record.path = path
        · simp [on, isPath]
        · simp [on, isPath]

/-- What reconciliation reads of a list is the offline queue of its changes. -/
theorem bestFrom_eq_enqueue (held : Queue) (changes : List Change) :
    bestFrom held changes = changes.foldlM enqueue held := by
  induction changes generalizing held with
  | nil => rfl
  | cons c rest ih =>
      rw [bestFrom, List.foldlM_cons, enqueue]
      split
      · rfl
      · exact ih (keepNewest held c)

theorem bestByPath_spec {changes : List Change} (named : ∀ c ∈ changes, c.record.path ≠ "") :
    ∃ found, bestByPath changes = .ok found ∧ ∀ path, found.lookup path = best changes path :=
  bestFrom_spec named

theorem mem_on {changes : List Change} {path : String} {c : Change} :
    c ∈ on path changes ↔ c ∈ changes ∧ c.record.path = path := by
  simp [on]

/-- The newest change of a path is one of the list, to that path, of the highest rank. -/
theorem best_eq_some {changes : List Change} {path : String} {top : Change}
    (isBest : best changes path = some top) :
    top ∈ changes ∧ top.record.path = path ∧
      ∀ c ∈ changes, c.record.path = path → c.rank ≤ top.rank := by
  rcases Register.offerAll_ranked_eq_some isBest with ⟨topMem, highest⟩
  rcases mem_on.mp topMem with ⟨isThere, isPath⟩
  exact ⟨isThere, isPath, fun c cMem cPath => highest c (mem_on.mpr ⟨cMem, cPath⟩)⟩

/-- Whether a list has a change to a path. -/
def Occurs (changes : List Change) (path : String) : Prop :=
  ∃ c ∈ changes, c.record.path = path

theorem best_isSome_iff {changes : List Change} {path : String} :
    (best changes path).isSome ↔ Occurs changes path := by
  rw [Option.isSome_iff_ne_none, ne_eq, best, Register.offerAll_ranked_eq_none]
  simp only [on, List.filter_eq_nil_iff, decide_eq_true_eq, not_forall, not_not, exists_prop, Occurs]

/-- Changes of different rank to a path leave the same newest one in every order. -/
theorem best_perm {changes order : List Change} (perm : order.Perm changes)
    (distinct : (changes.map fun c => (c.record.path, c.record.revision, c.node)).Nodup)
    (path : String) : best order path = best changes path := by
  apply Register.offerAll_ranked_perm (perm.filter _)
  intro first firstMem second secondMem sameRank
  rcases mem_on.mp firstMem with ⟨firstMem, firstPath⟩
  rcases mem_on.mp secondMem with ⟨secondMem, secondPath⟩
  have isRank : (first.record.revision, first.node) = (second.record.revision, second.node) :=
    toLex.injective sameRank
  apply List.inj_on_of_nodup_map distinct firstMem secondMem
  simp only [firstPath, secondPath, Prod.mk.injEq, true_and]
  exact Prod.mk.inj isRank

/-! ## The decision as a whole -/

namespace Verdict

/-- What the other side decides. -/
def mirror : Verdict → Verdict
  | .send c => .apply c
  | .apply c => .send c
  | .converged => .converged
  | .conflict lc rc => .conflict rc lc

def applied : Verdict → Option Change
  | .apply c => some c
  | _ => none

/-- A verdict about a path names changes to that path only. -/
def Keyed (path : String) : Verdict → Prop
  | .send c | .apply c => c.record.path = path
  | _ => True

end Verdict

theorem same_comm (a b : Change) : same a b = same b a := by
  simp only [same, Bool.beq_comm]

theorem verdict_mirror (locally remotely : Option Change) :
    verdict remotely locally = (verdict locally remotely).mirror := by
  cases locally with
  | none => cases remotely <;> rfl
  | some lc =>
      cases remotely with
      | none => rfl
      | some rc =>
          simp only [verdict]
          rcases Nat.lt_trichotomy lc.record.revision rc.record.revision with isLess | isEq | isMore
          · simp [isLess, Nat.lt_asymm isLess, Verdict.mirror]
          · simp only [isEq, gt_iff_lt, Nat.lt_irrefl, if_false, same_comm rc lc]
            cases same lc rc <;> rfl
          · simp [isMore, Nat.lt_asymm isMore, Verdict.mirror]

namespace Decision

/-- The decision of the other side. -/
def mirror (d : Decision) : Decision where
  send := d.apply
  apply := d.send
  converged := d.converged
  conflicts := d.conflicts.map fun conflict =>
    ⟨conflict.path, conflict.remoteChange, conflict.localChange⟩

/-- The paths of a decision with repetitions: a path is there as often as it is put somewhere. -/
def places (d : Decision) : List String :=
  d.send.map (·.record.path) ++ d.apply.map (·.record.path) ++ d.converged ++
    d.conflicts.map (·.path)

/-- Adds the verdicts about some paths. -/
def addAll (d : Decision) (verdicts : String → Verdict) (paths : List String) : Decision :=
  paths.foldl (fun d path => d.add path (verdicts path)) d

variable {d : Decision} {verdicts : String → Verdict} {paths : List String}

@[simp]
theorem addAll_nil : d.addAll verdicts [] = d := rfl

@[simp]
theorem addAll_cons (path : String) :
    d.addAll verdicts (path :: paths) = (d.add path (verdicts path)).addAll verdicts paths := rfl

theorem mirror_add (path : String) (v : Verdict) :
    (d.add path v).mirror = d.mirror.add path v.mirror := by
  cases v <;> simp [add, mirror, Verdict.mirror]

theorem mirror_addAll :
    (d.addAll verdicts paths).mirror = d.mirror.addAll (fun path => (verdicts path).mirror) paths := by
  induction paths generalizing d with
  | nil => rfl
  | cons path rest ih => rw [addAll_cons, ih, mirror_add, addAll_cons]

theorem places_add {path : String} {v : Verdict} (keyed : v.Keyed path) :
    (d.add path v).places.Perm (path :: d.places) := by
  rw [List.perm_iff_count]
  intro other
  cases v with
  | send c | apply c =>
      have isPath : c.record.path = path := keyed
      simp only [add, places, List.map_append, List.map_cons, List.map_nil, isPath,
        List.count_append, List.count_cons, List.count_nil]
      omega
  | converged =>
      simp only [add, places, List.count_append, List.count_cons, List.count_nil]
      omega
  | conflict lc rc =>
      simp only [add, places, List.map_append, List.map_cons, List.map_nil, List.count_append,
        List.count_cons, List.count_nil]
      omega

/-- Each path is put in one place. -/
theorem places_addAll (keyed : ∀ path ∈ paths, (verdicts path).Keyed path) :
    (d.addAll verdicts paths).places.Perm (d.places ++ paths) := by
  induction paths generalizing d with
  | nil => simp
  | cons path rest ih =>
      have here : (d.add path (verdicts path)).places.Perm (path :: d.places) :=
        places_add (keyed path List.mem_cons_self)
      have later : ((d.add path (verdicts path)).addAll verdicts rest).places.Perm
          ((d.add path (verdicts path)).places ++ rest) :=
        ih fun other otherMem => keyed other (List.mem_cons_of_mem path otherMem)
      exact (later.trans (here.append_right rest)).trans List.perm_middle.symm

theorem mem_send_addAll {c : Change} :
    c ∈ (d.addAll verdicts paths).send ↔ c ∈ d.send ∨ ∃ path ∈ paths, verdicts path = .send c := by
  induction paths generalizing d with
  | nil => simp
  | cons path rest ih =>
      rw [addAll_cons, ih]
      cases isVerdict : verdicts path <;>
        simp [add, isVerdict, or_assoc, eq_comm]

theorem mem_conflicts_addAll {conflict : Conflict} :
    conflict ∈ (d.addAll verdicts paths).conflicts ↔ conflict ∈ d.conflicts ∨
      conflict.path ∈ paths ∧
        verdicts conflict.path = .conflict conflict.localChange conflict.remoteChange := by
  induction paths generalizing d with
  | nil => simp
  | cons path rest ih =>
      rw [addAll_cons, ih]
      cases isVerdict : verdicts path with
      | conflict lc rc =>
          simp only [add, List.mem_append, List.mem_cons, List.not_mem_nil, or_false, or_assoc]
          constructor
          · rintro (isOld | rfl | isLater)
            · exact .inl isOld
            · exact .inr ⟨.inl rfl, isVerdict⟩
            · exact .inr ⟨.inr isLater.1, isLater.2⟩
          · rintro (isOld | ⟨isHere | isLater, isConflict⟩)
            · exact .inl isOld
            · rw [isHere, isVerdict] at isConflict
              cases conflict
              cases isHere
              cases isConflict
              exact .inr (.inl rfl)
            · exact .inr (.inr ⟨isLater, isConflict⟩)
      | send _ | apply _ | converged =>
          simp only [add, List.mem_cons]
          constructor
          · rintro (isOld | ⟨isLater, isConflict⟩)
            · exact .inl isOld
            · exact .inr ⟨.inr isLater, isConflict⟩
          · rintro (isOld | ⟨isHere | isLater, isConflict⟩)
            · exact .inl isOld
            · rw [isHere, isVerdict] at isConflict
              cases isConflict
            · exact .inr ⟨isLater, isConflict⟩

theorem mem_apply_addAll {c : Change} :
    c ∈ (d.addAll verdicts paths).apply ↔ c ∈ d.apply ∨ ∃ path ∈ paths, verdicts path = .apply c := by
  have isMirrored : (d.addAll verdicts paths).apply =
      (d.mirror.addAll (fun path => (verdicts path).mirror) paths).send :=
    congrArg Decision.send mirror_addAll
  rw [isMirrored, mem_send_addAll]
  refine or_congr Iff.rfl (exists_congr fun path => and_congr Iff.rfl ?_)
  cases verdicts path <;> simp [Verdict.mirror]

end Decision

/-! ## Taking the changes -/

/-- What a side holds of each path after it takes a change. -/
def take (held : String → Option Change) (c : Change) : String → Option Change :=
  fun path => if c.record.path = path then some c else held path

/-- What a side holds of each path after it takes the changes assigned to it. -/
def takeAll (held : String → Option Change) (assigned : List Change) : String → Option Change :=
  assigned.foldl take held

theorem takeAll_of_not_occurs {held : String → Option Change} {assigned : List Change}
    {path : String} (notThere : ¬ Occurs assigned path) : takeAll held assigned path = held path := by
  induction assigned generalizing held with
  | nil => rfl
  | cons c rest ih =>
      have otherPath : c.record.path ≠ path := fun isPath => notThere ⟨c, by simp, isPath⟩
      have later : ¬ Occurs rest path := by
        rintro ⟨other, isThere, isPath⟩
        exact notThere ⟨other, by simp [isThere], isPath⟩
      have step : takeAll (take held c) rest path = take held c path := ih later
      rw [takeAll, List.foldl_cons]
      exact step.trans (if_neg otherPath)

theorem takeAll_of_mem {held : String → Option Change} {assigned : List Change} {c : Change}
    (once : (assigned.map (·.record.path)).Nodup) (isThere : c ∈ assigned) :
    takeAll held assigned c.record.path = some c := by
  induction assigned generalizing held with
  | nil => cases isThere
  | cons first rest ih =>
      rw [List.map_cons, List.nodup_cons] at once
      rw [takeAll, List.foldl_cons]
      rcases List.mem_cons.mp isThere with rfl | isLater
      · have notAgain : ¬ Occurs rest c.record.path := by
          rintro ⟨other, otherMem, samePath⟩
          exact once.1 (List.mem_map.mpr ⟨other, otherMem, samePath⟩)
        exact (takeAll_of_not_occurs notAgain).trans (if_pos rfl)
      · exact ih once.2 isLater

/-! ## The two sides of a reconciliation -/

/-- What the decisions of the two sides have to do with each other and with the lists. -/
structure Reconciled (locals remotes : List Change) (ours theirs : Decision) : Prop where
  placedOnce : ours.places.Nodup
  placed : ∀ path, path ∈ ours.places ↔ Occurs locals path ∨ Occurs remotes path
  mirrored : theirs = ours.mirror
  conflicting : ∀ path, path ∈ ours.conflicts.map (·.path) ↔
    ∃ lc rc, best locals path = some lc ∧ best remotes path = some rc ∧
      lc.record.revision = rc.record.revision ∧ same lc rc = false
  agree : ∀ path, path ∈ ours.places → path ∉ ours.conflicts.map (·.path) →
    ∃ here there, takeAll (best locals) ours.apply path = some here ∧
      takeAll (best remotes) theirs.apply path = some there ∧
      same here there ∧ here.record.revision = there.record.revision ∧
      (here ∈ locals ∨ here ∈ remotes) ∧
      ∀ c, c ∈ locals ∨ c ∈ remotes → c.record.path = path →
        c.record.revision ≤ here.record.revision

/-- What is decided about a path by the newest change on either side. -/
def verdictOf (locals remotes : List Change) (path : String) : Verdict :=
  verdict (best locals path) (best remotes path)

theorem keyed_verdictOf (locals remotes : List Change) (path : String) :
    (verdictOf locals remotes path).Keyed path := by
  simp only [verdictOf]
  cases isLocal : best locals path with
  | none =>
      cases isRemote : best remotes path with
      | none => trivial
      | some rc => exact (best_eq_some isRemote).2.1
  | some lc =>
      cases isRemote : best remotes path with
      | none => exact (best_eq_some isLocal).2.1
      | some rc =>
          simp only [verdict]
          split
          · exact (best_eq_some isLocal).2.1
          · split
            · exact (best_eq_some isRemote).2.1
            · split <;> trivial

/-- The paths of two lists, each once and in order. -/
structure Listed (locals remotes : List Change) (paths : List String) : Prop where
  nodup : paths.Nodup
  sorted : paths.Pairwise (· ≤ ·)
  occurs : ∀ path, path ∈ paths ↔ Occurs locals path ∨ Occurs remotes path

namespace Listed

variable {locals remotes : List Change} {paths others : List String}

theorem of_lookup {localBest remoteBest : Queue}
    (isLocal : ∀ path, localBest.lookup path = best locals path)
    (isRemote : ∀ path, remoteBest.lookup path = best remotes path) :
    Listed locals remotes (pathsOf localBest remoteBest) where
  nodup := (Go.sortStrings_perm _).nodup_iff.mpr (remoteBest.nodupKeys.union _)
  sorted := List.pairwise_insertionSort _ _
  occurs path := by
    rw [pathsOf, (Go.sortStrings_perm _).mem_iff, List.mem_union_iff]
    simp only [← AList.mem_keys, ← AList.lookup_isSome, isLocal, isRemote, best_isSome_iff]

theorem unique (listed : Listed locals remotes paths) (other : Listed locals remotes others) :
    paths = others := by
  have perm : paths.Perm others := by
    rw [List.perm_ext_iff_of_nodup listed.nodup other.nodup]
    intro path
    rw [listed.occurs, other.occurs]
  exact List.Perm.eq_of_pairwise (fun _ _ _ _ => le_antisymm) listed.sorted other.sorted perm

theorem swap (listed : Listed locals remotes paths) : Listed remotes locals paths where
  nodup := listed.nodup
  sorted := listed.sorted
  occurs path := (listed.occurs path).trans or_comm

end Listed

theorem reconcile_spec {locals remotes : List Change}
    (namedLocals : ∀ c ∈ locals, c.record.path ≠ "")
    (namedRemotes : ∀ c ∈ remotes, c.record.path ≠ "") :
    ∃ paths, Listed locals remotes paths ∧ reconcile locals remotes =
      .ok (Decision.addAll {} (verdictOf locals remotes) paths) := by
  rcases bestByPath_spec namedLocals with ⟨localBest, isLocalBest, isLocal⟩
  rcases bestByPath_spec namedRemotes with ⟨remoteBest, isRemoteBest, isRemote⟩
  refine ⟨pathsOf localBest remoteBest, .of_lookup isLocal isRemote, ?_⟩
  simp only [reconcile, isLocalBest, isRemoteBest, isLocal, isRemote]
  rfl

/-- After a side takes what is assigned to it, it holds the change its verdict about a path
assigns to it, and otherwise what it held. -/
theorem takeAll_apply {verdicts : String → Verdict} {paths : List String}
    (nodup : paths.Nodup) (keyed : ∀ path ∈ paths, (verdicts path).Keyed path)
    (held : String → Option Change) {path : String} (isThere : path ∈ paths) :
    takeAll held (Decision.addAll {} verdicts paths).apply path =
      ((verdicts path).applied).or (held path) := by
  have ofMem {c : Change} (cMem : c ∈ (Decision.addAll {} verdicts paths).apply) :
      verdicts c.record.path = .apply c := by
    rcases Decision.mem_apply_addAll.mp cMem with isOld | ⟨other, otherMem, isApply⟩
    · cases isOld
    · have isPath := keyed other otherMem
      rw [isApply] at isPath
      have samePath : c.record.path = other := isPath
      rw [samePath, isApply]
  have once : ((Decision.addAll {} verdicts paths).apply.map (·.record.path)).Nodup := by
    have placedOnce : (Decision.addAll {} verdicts paths).places.Nodup :=
      (Decision.places_addAll keyed).nodup_iff.mpr nodup
    simp only [Decision.places, List.append_assoc, List.nodup_append] at placedOnce
    exact placedOnce.2.1.1
  cases isVerdict : verdicts path with
  | apply c =>
      have isPath := keyed path isThere
      rw [isVerdict] at isPath
      have samePath : c.record.path = path := isPath
      have cMem : c ∈ (Decision.addAll {} verdicts paths).apply :=
        Decision.mem_apply_addAll.mpr (.inr ⟨path, isThere, isVerdict⟩)
      rw [← samePath]
      exact takeAll_of_mem once cMem
  | send _ | converged | conflict _ _ =>
      apply takeAll_of_not_occurs
      rintro ⟨c, cMem, rfl⟩
      rw [ofMem cMem] at isVerdict
      cases isVerdict

theorem verdict_eq_conflict {locally remotely : Option Change} {lc rc : Change} :
    verdict locally remotely = .conflict lc rc ↔ locally = some lc ∧ remotely = some rc ∧
      lc.record.revision = rc.record.revision ∧ same lc rc = false := by
  cases locally with
  | none => cases remotely <;> simp [verdict]
  | some l =>
      cases remotely with
      | none => simp [verdict]
      | some r =>
          simp only [verdict, Option.some.injEq]
          constructor
          · intro isConflict
            split at isConflict
            · cases isConflict
            · split at isConflict
              · cases isConflict
              · split at isConflict
                · cases isConflict
                · rename_i notMore notLess notSame
                  cases isConflict
                  exact ⟨rfl, rfl, by omega, by simpa using notSame⟩
          · rintro ⟨rfl, rfl, isEq, notSame⟩
            simp [isEq, notSame]

/-- On a path without a conflict both sides end with the same content at a revision that none
of the changes exceeds. -/
theorem agree_of_verdict {locals remotes : List Change} {path : String}
    (occurs : Occurs locals path ∨ Occurs remotes path)
    (noConflict : ∀ lc rc, verdictOf locals remotes path ≠ .conflict lc rc) :
    ∃ here there,
      ((verdictOf locals remotes path).applied).or (best locals path) = some here ∧
      ((verdictOf remotes locals path).applied).or (best remotes path) = some there ∧
      same here there ∧ here.record.revision = there.record.revision ∧
      (here ∈ locals ∨ here ∈ remotes) ∧
      ∀ c, c ∈ locals ∨ c ∈ remotes → c.record.path = path →
        c.record.revision ≤ here.record.revision := by
  have sameSelf (c : Change) : same c c = true := by simp [same]
  have below {changes : List Change} {top : Change} (isBest : best changes path = some top) :
      ∀ c ∈ changes, c.record.path = path → c.record.revision ≤ top.record.revision := by
    intro c cMem cPath
    have lower := (best_eq_some isBest).2.2 c cMem cPath
    rw [Change.rank, Change.rank, Prod.Lex.toLex_le_toLex] at lower
    rcases lower with isLess | isEq
    · exact Nat.le_of_lt isLess
    · exact Nat.le_of_eq isEq.1
  have notThere {changes : List Change} (isNone : best changes path = none) :
      ∀ c ∈ changes, c.record.path ≠ path := by
    intro c cMem cPath
    have isSome := best_isSome_iff.mpr ⟨c, cMem, cPath⟩
    rw [isNone] at isSome
    cases isSome
  cases isLocal : best locals path with
  | none =>
      cases isRemote : best remotes path with
      | none =>
          rcases occurs with ⟨c, cMem, cPath⟩ | ⟨c, cMem, cPath⟩
          · exact absurd cPath (notThere isLocal c cMem)
          · exact absurd cPath (notThere isRemote c cMem)
      | some rc =>
          refine ⟨rc, rc, ?_, ?_, sameSelf rc, rfl, .inr (best_eq_some isRemote).1, ?_⟩
          · simp [verdictOf, isLocal, isRemote, verdict, Verdict.applied]
          · simp [verdictOf, isLocal, isRemote, verdict, Verdict.applied]
          · rintro c (cMem | cMem) cPath
            · exact absurd cPath (notThere isLocal c cMem)
            · exact below isRemote c cMem cPath
  | some lc =>
      cases isRemote : best remotes path with
      | none =>
          refine ⟨lc, lc, ?_, ?_, sameSelf lc, rfl, .inl (best_eq_some isLocal).1, ?_⟩
          · simp [verdictOf, isLocal, isRemote, verdict, Verdict.applied]
          · simp [verdictOf, isLocal, isRemote, verdict, Verdict.applied]
          · rintro c (cMem | cMem) cPath
            · exact below isLocal c cMem cPath
            · exact absurd cPath (notThere isRemote c cMem)
      | some rc =>
          rcases Nat.lt_trichotomy lc.record.revision rc.record.revision with isLess | isEq | isMore
          · refine ⟨rc, rc, ?_, ?_, sameSelf rc, rfl, .inr (best_eq_some isRemote).1, ?_⟩
            · simp [verdictOf, isLocal, isRemote, verdict, Verdict.applied, isLess,
                Nat.lt_asymm isLess]
            · simp [verdictOf, isLocal, isRemote, verdict, Verdict.applied, isLess]
            · rintro c (cMem | cMem) cPath
              · exact (below isLocal c cMem cPath).trans isLess.le
              · exact below isRemote c cMem cPath
          · have isSame : same lc rc = true := by
              by_contra notSame
              refine noConflict lc rc (verdict_eq_conflict.mpr ⟨isLocal, isRemote, isEq, ?_⟩)
              simpa using notSame
            refine ⟨lc, rc, ?_, ?_, isSame, isEq, .inl (best_eq_some isLocal).1, ?_⟩
            · simp [verdictOf, isLocal, isRemote, verdict, Verdict.applied, isEq, isSame]
            · simp [verdictOf, isLocal, isRemote, verdict, Verdict.applied, isEq, same_comm rc lc,
                isSame]
            · rintro c (cMem | cMem) cPath
              · exact below isLocal c cMem cPath
              · exact (below isRemote c cMem cPath).trans isEq.ge
          · refine ⟨lc, lc, ?_, ?_, sameSelf lc, rfl, .inl (best_eq_some isLocal).1, ?_⟩
            · simp [verdictOf, isLocal, isRemote, verdict, Verdict.applied, isMore]
            · simp [verdictOf, isLocal, isRemote, verdict, Verdict.applied, isMore,
                Nat.lt_asymm isMore]
            · rintro c (cMem | cMem) cPath
              · exact below isLocal c cMem cPath
              · exact (below isRemote c cMem cPath).trans isMore.le

/-- The decisions of two sides that see the same paths, each from its own point of view. -/
theorem reconciled_of_listed {locals remotes : List Change} {paths : List String}
    (listed : Listed locals remotes paths) :
    Reconciled locals remotes (Decision.addAll {} (verdictOf locals remotes) paths)
      (Decision.addAll {} (verdictOf remotes locals) paths) := by
  have placed : (Decision.addAll {} (verdictOf locals remotes) paths).places.Perm paths :=
    Decision.places_addAll fun path _ => keyed_verdictOf locals remotes path
  have conflicting (path : String) :
      path ∈ (Decision.addAll {} (verdictOf locals remotes) paths).conflicts.map (·.path) ↔
        path ∈ paths ∧ ∃ lc rc, verdictOf locals remotes path = .conflict lc rc := by
    simp only [List.mem_map, Decision.mem_conflicts_addAll, List.not_mem_nil, false_or]
    constructor
    · rintro ⟨conflict, ⟨isThere, isConflict⟩, rfl⟩
      exact ⟨isThere, _, _, isConflict⟩
    · rintro ⟨isThere, lc, rc, isConflict⟩
      exact ⟨⟨path, lc, rc⟩, ⟨isThere, isConflict⟩, rfl⟩
  refine ⟨placed.nodup_iff.mpr listed.nodup, fun path => ?_, ?_, fun path => ?_, ?_⟩
  · rw [placed.mem_iff, listed.occurs]
  · rw [Decision.mirror_addAll]
    exact congrArg (Decision.addAll {} · paths) (funext fun path => verdict_mirror _ _)
  · rw [conflicting]
    simp only [verdictOf, verdict_eq_conflict]
    constructor
    · rintro ⟨_, isConflict⟩
      exact isConflict
    · intro isConflict
      rcases isConflict with ⟨lc, rc, isLocal, isRemote, sameRevision, notSame⟩
      refine ⟨(listed.occurs path).mpr (.inl ?_), lc, rc, isLocal, isRemote, sameRevision, notSame⟩
      exact best_isSome_iff.mp (by rw [isLocal]; rfl)
  · intro path isPlaced notConflict
    have isThere := placed.mem_iff.mp isPlaced
    rw [takeAll_apply listed.nodup (fun path _ => keyed_verdictOf locals remotes path) _ isThere,
      takeAll_apply listed.nodup (fun path _ => keyed_verdictOf remotes locals path) _ isThere]
    refine agree_of_verdict ((listed.occurs path).mp isThere) fun lc rc isConflict => ?_
    exact notConflict ((conflicting path).mpr ⟨isThere, lc, rc, isConflict⟩)

/-- The two sides of a reconciliation decide the mirror image of each other, agree on every path
without a conflict, and decide the same whatever the order of the changes. -/
theorem reconcile_symmetric (locals remotes : List Change)
    (namedLocals : ∀ c ∈ locals, c.record.path ≠ "")
    (namedRemotes : ∀ c ∈ remotes, c.record.path ≠ "") :
    (∃ ours theirs, reconcile locals remotes = .ok ours ∧ reconcile remotes locals = .ok theirs ∧
      Reconciled locals remotes ours theirs) ∧
    ∀ reordered rearranged, reordered.Perm locals → rearranged.Perm remotes →
      (locals.map fun c => (c.record.path, c.record.revision, c.node)).Nodup →
      (remotes.map fun c => (c.record.path, c.record.revision, c.node)).Nodup →
      reconcile reordered rearranged = reconcile locals remotes := by
  rcases reconcile_spec namedLocals namedRemotes with ⟨paths, listed, isOurs⟩
  rcases reconcile_spec namedRemotes namedLocals with ⟨others, otherListed, isTheirs⟩
  constructor
  · rw [← listed.swap.unique otherListed] at isTheirs
    exact ⟨_, _, isOurs, isTheirs, reconciled_of_listed listed⟩
  · intro reordered rearranged localPerm remotePerm localDistinct remoteDistinct
    rcases reconcile_spec (fun c cMem => namedLocals c (localPerm.mem_iff.mp cMem))
      (fun c cMem => namedRemotes c (remotePerm.mem_iff.mp cMem)) with ⟨again, againListed, isAgain⟩
    have samePaths : Listed locals remotes again :=
      ⟨againListed.nodup, againListed.sorted, fun path => by
        rw [againListed.occurs]
        simp only [Occurs, localPerm.mem_iff, remotePerm.mem_iff]⟩
    have sameVerdicts : verdictOf reordered rearranged = verdictOf locals remotes := by
      funext path
      rw [verdictOf, best_perm localPerm localDistinct, best_perm remotePerm remoteDistinct]
      rfl
    rw [isAgain, isOurs, samePaths.unique listed, sameVerdicts]

def change (node : NodeId) (path : String) (revision : ℕ) (hash : String) : Change where
  record := { id := path, path := path, revision := revision, hash := hash }
  node := node

/-- One path sent, one applied, one converged and one in conflict. -/
def ourChanges : List Change :=
  [change "n1" "a" 2 "A2", change "n1" "b" 1 "B1", change "n1" "c" 2 "C",
    change "n1" "d" 2 "D-local"]

def theirChanges : List Change :=
  [change "n2" "a" 1 "A1", change "n2" "b" 3 "B3", change "n2" "c" 2 "C",
    change "n2" "d" 2 "D-remote"]

theorem fourPaths_reconciled :
    (∃ ours theirs, reconcile ourChanges theirChanges = .ok ours ∧
      reconcile theirChanges ourChanges = .ok theirs ∧
      Reconciled ourChanges theirChanges ours theirs) ∧
    reconcile ourChanges.reverse theirChanges.reverse = reconcile ourChanges theirChanges :=
  (reconcile_symmetric ourChanges theirChanges (by decide) (by decide)).imp_right fun orderFree =>
    orderFree _ _ ourChanges.reverse_perm theirChanges.reverse_perm (by decide) (by decide)

end Aa.Sync.Queue
