import Aa.Sync.Queue

/-!
# When the offline queue depends on the order of its changes

A queue keeps for each path a change of the highest revision and, among those, of the greatest
node. Of several such changes it keeps the one that was enqueued first, so that the order is
without effect exactly if there is one for each path.
-/

namespace Aa.Sync.Queue

open Aa.Library

/-- The pending changes after changes are enqueued one after the other. -/
def pendingAfter (changes : List Change) : Except Error (List Change) :=
  (changes.foldlM enqueue (∅ : Queue)).map pending

/-- A change that no other one of the list to its path exceeds. -/
def Top (changes : List Change) (c : Change) : Prop :=
  c ∈ changes ∧ ∀ other ∈ changes, other.record.path = c.record.path → other.rank ≤ c.rank

/-- The list of a top change for each path, by path. -/
structure Newest (changes kept : List Change) : Prop where
  sorted : kept.Pairwise fun first second => first.record.path < second.record.path
  top : ∀ c ∈ kept, Top changes c
  covers : ∀ c ∈ changes, ∃ newest ∈ kept, newest.record.path = c.record.path

/-- In every order the same changes are pending, a top one for each path. -/
structure OrderIndependent (changes : List Change) : Prop where
  same : ∀ first second : List Change, first.Perm changes → second.Perm changes →
    pendingAfter first = pendingAfter second
  newest : ∀ order : List Change, order.Perm changes →
    ∃ kept, pendingAfter order = .ok kept ∧ Newest changes kept

/-! ## The pending changes -/

theorem mem_pending {queue : Queue} {c : Change} :
    c ∈ pending queue ↔ ∃ path, queue.lookup path = some c := by
  simp only [pending, List.mem_mergeSort, List.mem_map]
  constructor
  · rintro ⟨⟨path, held⟩, isEntry, rfl⟩
    exact ⟨path, AList.mem_lookup_iff.mpr isEntry⟩
  · rintro ⟨path, isHeld⟩
    exact ⟨⟨path, c⟩, AList.mem_lookup_iff.mp isHeld, rfl⟩

/-- Changes under their own paths are pending in the order of these. -/
theorem sorted_pending {queue : Queue}
    (keyed : ∀ path c, queue.lookup path = some c → c.record.path = path) :
    (pending queue).Pairwise fun first second => first.record.path < second.record.path := by
  have ascending : (pending queue).Pairwise fun first second =>
      decide (first.record.path ≤ second.record.path) = true := by
    apply List.pairwise_mergeSort
    · intro first second third
      simpa using le_trans
    · intro first second
      simpa using le_total first.record.path second.record.path
  have paths : queue.entries.map (fun entry => entry.2.record.path) =
      queue.entries.map Sigma.fst := by
    apply List.map_congr_left
    rintro ⟨path, c⟩ isEntry
    exact keyed path c (AList.mem_lookup_iff.mpr isEntry)
  have distinct : ((pending queue).map fun c => c.record.path).Nodup := by
    have perm := (List.mergeSort_perm (queue.entries.map Sigma.snd) fun first second =>
      decide (first.record.path ≤ second.record.path)).map fun c => c.record.path
    rw [List.map_map] at perm
    refine perm.nodup_iff.mpr ?_
    simp only [Function.comp_def, paths]
    exact queue.nodupKeys
  have apart := List.pairwise_map.mp distinct
  refine (ascending.and apart).imp ?_
  rintro first second ⟨below, different⟩
  exact lt_of_le_of_ne (by simpa using below) different

/-- Lists in the order of their paths with the same members are the same. -/
theorem eq_of_sorted {first second : List Change}
    (sorted : first.Pairwise fun first second => first.record.path < second.record.path)
    (otherSorted : second.Pairwise fun first second => first.record.path < second.record.path)
    (same : ∀ c, c ∈ first ↔ c ∈ second) : first = second := by
  have nodup : first.Nodup := sorted.imp fun below isEq => absurd (isEq ▸ below) (lt_irrefl _)
  have otherNodup : second.Nodup :=
    otherSorted.imp fun below isEq => absurd (isEq ▸ below) (lt_irrefl _)
  refine List.Perm.eq_of_pairwise ?_ sorted otherSorted
    ((List.perm_ext_iff_of_nodup nodup otherNodup).mpr same)
  intro left right _ _ below above
  exact absurd (below.trans above) (lt_irrefl _)

variable {changes : List Change}

theorem pendingAfter_spec (named : ∀ c ∈ changes, c.record.path ≠ "") :
    ∃ kept, pendingAfter changes = .ok kept ∧
      (kept.Pairwise fun first second => first.record.path < second.record.path) ∧
      ∀ c, c ∈ kept ↔ best changes c.record.path = some c := by
  rcases bestByPath_spec named with ⟨found, isFound, lookups⟩
  have keyed : ∀ path c, found.lookup path = some c → c.record.path = path := by
    intro path c isHeld
    rw [lookups] at isHeld
    exact (best_eq_some isHeld).2.1
  refine ⟨pending found, ?_, sorted_pending keyed, ?_⟩
  · have isQueue : changes.foldlM enqueue (∅ : Queue) = .ok found :=
      (bestFrom_eq_enqueue ∅ changes).symm.trans isFound
    rw [pendingAfter, isQueue]
    rfl
  · intro c
    rw [mem_pending]
    constructor
    · rintro ⟨path, isHeld⟩
      rw [keyed path c isHeld, ← lookups, isHeld]
    · intro isBest
      exact ⟨c.record.path, by rw [lookups, isBest]⟩

theorem top_of_best {path : String} {c : Change} (isBest : best changes path = some c) :
    Top changes c ∧ c.record.path = path := by
  rcases best_eq_some isBest with ⟨isThere, isPath, highest⟩
  exact ⟨⟨isThere, fun other isOther samePath => highest other isOther (samePath.trans isPath)⟩,
    isPath⟩

theorem Top.perm {order : List Change} {c : Change} (top : Top order c)
    (perm : order.Perm changes) : Top changes c :=
  ⟨perm.mem_iff.mp top.1, fun other isOther => top.2 other (perm.mem_iff.mpr isOther)⟩

/-- A top change that is enqueued first is kept. -/
theorem best_cons_of_top {c : Change} {rest : List Change} (top : Top (c :: rest) c) :
    best (c :: rest) c.record.path = some c := by
  have isFirst : on c.record.path (c :: rest) = c :: on c.record.path rest := by simp [on]
  rw [best, isFirst, Register.offerAll_cons]
  apply Register.offerAll_of_kept
  intro other isOther isHigher
  rcases mem_on.mp isOther with ⟨isThere, isPath⟩
  exact absurd isHigher (not_lt.mpr (top.2 other (List.mem_cons_of_mem _ isThere) isPath))

theorem newest_pendingAfter (named : ∀ c ∈ changes, c.record.path ≠ "") {order : List Change}
    (perm : order.Perm changes) :
    ∃ kept, pendingAfter order = .ok kept ∧ Newest changes kept := by
  have orderNamed : ∀ c ∈ order, c.record.path ≠ "" :=
    fun c isThere => named c (perm.mem_iff.mp isThere)
  rcases pendingAfter_spec orderNamed with ⟨kept, isKept, sorted, isBest⟩
  refine ⟨kept, isKept, sorted, ?_, ?_⟩
  · intro c isThere
    exact (top_of_best ((isBest c).mp isThere)).1.perm perm
  · intro c isThere
    have occurs : (best order c.record.path).isSome :=
      best_isSome_iff.mpr ⟨c, perm.mem_iff.mpr isThere, rfl⟩
    rcases Option.isSome_iff_exists.mp occurs with ⟨newest, isNewest⟩
    have isPath := (top_of_best isNewest).2
    refine ⟨newest, (isBest newest).mpr ?_, isPath⟩
    rw [isPath, isNewest]

/-- The order of the changes is without effect exactly if for each path the changes of the
highest revision and, among those, of the greatest node are the same. -/
theorem anyOrder_iff_tops_agree (named : ∀ c ∈ changes, c.record.path ≠ "") :
    OrderIndependent changes ↔ ∀ first second, Top changes first → Top changes second →
      first.record.path = second.record.path → first = second := by
  constructor
  · intro independent first second top other samePath
    have order := List.perm_cons_erase top.1
    have otherOrder := List.perm_cons_erase other.1
    have same := independent.same _ _ order.symm otherOrder.symm
    have orderNamed : ∀ c ∈ first :: changes.erase first, c.record.path ≠ "" :=
      fun c isThere => named c (order.mem_iff.mpr isThere)
    have otherNamed : ∀ c ∈ second :: changes.erase second, c.record.path ≠ "" :=
      fun c isThere => named c (otherOrder.mem_iff.mpr isThere)
    rcases pendingAfter_spec orderNamed with ⟨kept, isKept, sorted, isBest⟩
    rcases pendingAfter_spec otherNamed with ⟨others, areOthers, -, isOther⟩
    have sameKept : kept = others := Except.ok.inj (isKept.symm.trans (same.trans areOthers))
    have isFirst : first ∈ kept := (isBest first).mpr (best_cons_of_top (top.perm order))
    have isSecond : second ∈ others := (isOther second).mpr (best_cons_of_top (other.perm otherOrder))
    rw [← sameKept, isBest, ← samePath] at isSecond
    exact Option.some.inj (((isBest first).mp isFirst).symm.trans isSecond)
  · intro unique
    refine ⟨?_, fun order perm => newest_pendingAfter named perm⟩
    intro first second perm otherPerm
    rcases newest_pendingAfter named perm with ⟨kept, isKept, newest⟩
    rcases newest_pendingAfter named otherPerm with ⟨others, areOthers, otherNewest⟩
    rw [isKept, areOthers]
    have within : ∀ {left right : List Change}, Newest changes left → Newest changes right →
        ∀ c ∈ left, c ∈ right := by
      intro left right ofLeft ofRight c isThere
      rcases ofRight.covers c (ofLeft.top c isThere).1 with ⟨other, isOther, samePath⟩
      rw [unique c other (ofLeft.top c isThere) (ofRight.top other isOther) samePath.symm]
      exact isOther
    exact congrArg Except.ok (eq_of_sorted newest.sorted otherNewest.sorted fun c =>
      ⟨within newest otherNewest c, within otherNewest newest c⟩)

theorem fourPaths_orderIndependent :
    OrderIndependent ourChanges ↔ ∀ first second, Top ourChanges first → Top ourChanges second →
      first.record.path = second.record.path → first = second :=
  anyOrder_iff_tops_agree (by decide)

/-- Two contents of one path at the same revision from one node: the first one enqueued stays. -/
theorem tied_orderDependent :
    pendingAfter [change "n1" "a" 1 "h1", change "n1" "a" 1 "h2"] =
        .ok [change "n1" "a" 1 "h1"] ∧
      pendingAfter [change "n1" "a" 1 "h2", change "n1" "a" 1 "h1"] =
        .ok [change "n1" "a" 1 "h2"] ∧
      ¬ OrderIndependent [change "n1" "a" 1 "h1", change "n1" "a" 1 "h2"] := by
  have first : pendingAfter [change "n1" "a" 1 "h1", change "n1" "a" 1 "h2"] =
      .ok [change "n1" "a" 1 "h1"] := by decide +kernel
  have second : pendingAfter [change "n1" "a" 1 "h2", change "n1" "a" 1 "h1"] =
      .ok [change "n1" "a" 1 "h2"] := by decide +kernel
  refine ⟨first, second, ?_⟩
  intro independent
  have same := independent.same _ _ (.refl _) (.swap _ _ _)
  rw [first, second] at same
  simp [change] at same

end Aa.Sync.Queue
