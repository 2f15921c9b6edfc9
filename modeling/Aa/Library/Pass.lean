import Mathlib.Data.List.Nodup
import Mathlib.Logic.Function.Basic

/-!
# Single passes over cells

A pass visits some cells one after the other, and a visit may read every cell but changes
only its own. What a visit sees is then the outcome of the pass in the cells visited before
it, and the cells as they were in all others.
-/

namespace Aa.Library

universe u v

variable {Key : Type u} {Cell : Type v} [DecidableEq Key]

/-- A visit that changes only the cell it is made to. -/
def Local (visit : (Key → Cell) → Key → Key → Cell) : Prop :=
  ∀ cells key other, other ≠ key → visit cells key other = cells other

namespace Local

variable {visit : (Key → Cell) → Key → Key → Cell} {keys : List Key} {cells : Key → Cell} {key : Key}

omit [DecidableEq Key] in
theorem foldl_of_not_mem (isLocal : Local visit) (notMem : key ∉ keys) :
    keys.foldl visit cells key = cells key := by
  induction keys generalizing cells with
  | nil => rfl
  | cons first rest ih =>
      simp only [List.mem_cons, not_or] at notMem
      rw [List.foldl_cons, ih notMem.2, isLocal _ _ _ notMem.1]

/-- A visited cell ends as its visit leaves it, and the visit sees the outcome of the pass in
the cells before it and the other cells as they were. -/
theorem foldl_of_mem (isLocal : Local visit) (nodup : keys.Nodup) (isThere : key ∈ keys) :
    ∃ seen : Key → Cell, keys.foldl visit cells key = visit seen key key ∧
      (∀ other, keys.idxOf other < keys.idxOf key → seen other = keys.foldl visit cells other) ∧
      ∀ other, ¬ keys.idxOf other < keys.idxOf key → seen other = cells other := by
  rcases List.eq_append_cons_of_mem isThere with ⟨before, after, rfl, notBefore⟩
  rcases List.nodup_append.mp nodup with ⟨beforeNodup, restNodup, disjoint⟩
  have notAfter : key ∉ after := (List.nodup_cons.mp restNodup).1
  have isIndex : (before ++ key :: after).idxOf key = before.length := by
    rw [List.idxOf_append_of_notMem notBefore, List.idxOf_cons_self, Nat.add_zero]
  have isEarlier : ∀ other,
      (before ++ key :: after).idxOf other < before.length ↔ other ∈ before := by
    intro other
    by_cases isBefore : other ∈ before
    · rw [List.idxOf_append_of_mem isBefore]
      exact ⟨fun _ => isBefore, fun _ => List.idxOf_lt_length_iff.mpr isBefore⟩
    · rw [List.idxOf_append_of_notMem isBefore]
      exact ⟨fun _ => by omega, fun isThere => absurd isThere isBefore⟩
  refine ⟨before.foldl visit cells, ?_, ?_, ?_⟩
  · rw [List.foldl_append, List.foldl_cons, isLocal.foldl_of_not_mem notAfter]
  · intro other
    rw [isIndex, isEarlier]
    intro isBefore
    have notLater : other ∉ key :: after := fun isLater =>
      disjoint other isBefore other isLater rfl
    rw [List.foldl_append, isLocal.foldl_of_not_mem notLater]
  · intro other
    rw [isIndex, isEarlier]
    intro notIn
    exact isLocal.foldl_of_not_mem notIn

end Local

end Aa.Library
