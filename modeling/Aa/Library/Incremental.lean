import Mathlib.Data.List.Basic

/-!
# Passes over a list that may be made early

A pass over a growing list may be made before the later items come if another pass, over
what the first one kept and the later items, gives what one pass over all of them gives.
A filter is such a pass, and so is keeping the last items, one after the other, and a pass
that in the end labels what it kept.
-/

namespace Aa.Library

universe u v

variable {α : Type u} {β : Type v}

/-- The last `count` items of a list. -/
def keepLast (count : ℕ) (items : List α) : List α := items.drop (items.length - count)

theorem keepLast_of_length_le {count : ℕ} {items : List α} (fits : items.length ≤ count) :
    keepLast count items = items := by
  rw [keepLast, Nat.sub_eq_zero_of_le fits, List.drop_zero]

theorem length_keepLast (count : ℕ) (items : List α) :
    (keepLast count items).length = min count items.length := by
  rw [keepLast, List.length_drop]
  omega

theorem map_keepLast (f : α → β) (count : ℕ) (items : List α) :
    (keepLast count items).map f = keepLast count (items.map f) := by
  rw [keepLast, keepLast, List.map_drop, List.length_map]

theorem keepLast_append (count : ℕ) (first second : List α) :
    keepLast count (first ++ second) =
      keepLast (count - second.length) first ++ keepLast count second := by
  rw [keepLast, List.length_append, List.drop_append, keepLast, keepLast]
  have second_eq : first.length + second.length - count - first.length = second.length - count := by
    omega
  rw [second_eq]
  congr 1
  rcases Nat.le_total count second.length with isLong | isShort
  · have past : first.length ≤ first.length + second.length - count := by omega
    have none : first.length ≤ first.length - (count - second.length) := by omega
    rw [List.drop_eq_nil_of_le past, List.drop_eq_nil_of_le none]
  · congr 1
    omega

theorem keepLast_keepLast {fewer count : ℕ} (isFewer : fewer ≤ count) (items : List α) :
    keepLast fewer (keepLast count items) = keepLast fewer items := by
  rw [keepLast, length_keepLast, keepLast, keepLast, List.drop_drop]
  congr 1
  omega

/-- Another pass over what a pass kept and the later items is one pass over all of them. -/
def Incremental (pass : List α → List α) : Prop :=
  ∀ first second, pass (pass first ++ second) = pass (first ++ second)

namespace Incremental

variable {pass outer inner : List α → List α}

theorem idempotent (incremental : Incremental pass) (items : List α) :
    pass (pass items) = pass items := by
  simpa using incremental items []

/-- A list that grows by batches, with a pass after each of them. -/
theorem foldl (incremental : Incremental pass) (start : List α) (batches : List (List α)) :
    batches.foldl (fun kept batch => pass (kept ++ batch)) (pass start) =
      pass (start ++ batches.flatten) := by
  induction batches generalizing start with
  | nil => simp
  | cons batch rest ih =>
      rw [List.foldl_cons, incremental start batch, ih, List.flatten_cons, List.append_assoc]

theorem filter (keeps : α → Bool) : Incremental (List.filter keeps) := by
  intro first second
  simp [List.filter_append, List.filter_filter]

theorem keepLast (count : ℕ) : Incremental (Library.keepLast count : List α → List α) := by
  intro first second
  have fewer : count - second.length ≤ count := Nat.sub_le _ _
  rw [keepLast_append, keepLast_keepLast fewer, ← keepLast_append]

/-- A pass after an inner one that looks at each item alone. -/
theorem comp (incremental : Incremental outer)
    (append : ∀ first second, inner (first ++ second) = inner first ++ inner second)
    (stays : ∀ items, inner (outer (inner items)) = outer (inner items)) :
    Incremental fun items => outer (inner items) := by
  intro first second
  calc outer (inner (outer (inner first) ++ second))
      = outer (outer (inner first) ++ inner second) := by rw [append, stays]
    _ = outer (inner first ++ inner second) := incremental _ _
    _ = outer (inner (first ++ second)) := by rw [append]

/-- A pass whose result is labelled, where neither the pass nor the labels look at the labels
that are there: all they see of an item is its `content`. -/
theorem labelled (incremental : Incremental pass) {content : α → β} {label : List α → List α}
    (passContent : ∀ first second, first.map content = second.map content →
      (pass first).map content = (pass second).map content)
    (labelContent : ∀ first second, first.map content = second.map content →
      label first = label second)
    (keepsContent : ∀ items, (label items).map content = items.map content) :
    Incremental fun items => label (pass items) := by
  intro first second
  refine labelContent _ _ ?_
  rw [← incremental first second]
  refine passContent _ _ ?_
  rw [List.map_append, List.map_append, keepsContent]

end Incremental

end Aa.Library
