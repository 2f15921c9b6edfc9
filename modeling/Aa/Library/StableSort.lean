import Mathlib.Data.List.Sort
import Mathlib.Order.Defs.LinearOrder

/-!
# Stable sorting by a key

A stable sort leaves values of one key in the order in which they came. Values of
different keys therefore come out the same in every order, and of values with equal keys
the order can be read back from the result.
-/

namespace Aa.Library

variable {Value Key : Type*} [LinearOrder Key]

/-- A list sorted by a key, values of one key in their order. -/
def sortBy (key : Value → Key) (values : List Value) : List Value :=
  values.insertionSort fun first second => key first ≤ key second

variable {key : Value → Key}

theorem sortBy_perm (values : List Value) : (sortBy key values).Perm values :=
  List.perm_insertionSort _ values

theorem mem_sortBy {values : List Value} {value : Value} :
    value ∈ sortBy key values ↔ value ∈ values :=
  (sortBy_perm values).mem_iff

@[simp]
theorem length_sortBy (values : List Value) : (sortBy key values).length = values.length :=
  (sortBy_perm values).length_eq

@[simp]
theorem sortBy_eq_nil {values : List Value} : sortBy key values = [] ↔ values = [] := by
  rw [← List.length_eq_zero_iff, length_sortBy, List.length_eq_zero_iff]

instance instTotalKey (key : Value → Key) :
    Std.Total fun first second => key first ≤ key second :=
  ⟨fun first second => le_total (key first) (key second)⟩

instance instTransKey (key : Value → Key) :
    IsTrans Value fun first second => key first ≤ key second :=
  ⟨fun _ _ _ => le_trans⟩

theorem sortBy_sorted (values : List Value) :
    (sortBy key values).Pairwise fun first second => key first ≤ key second :=
  List.pairwise_insertionSort _ values

/-- A sorted list is left as it is, and so is each of its beginnings. -/
theorem sortBy_of_sorted {values : List Value}
    (sorted : values.Pairwise fun first second => key first ≤ key second) :
    sortBy key values = values :=
  List.Pairwise.insertionSort_eq sorted

/-- Values of different keys come out the same in every order. -/
theorem sortBy_of_perm {values order : List Value} (perm : order.Perm values)
    (distinct : (values.map key).Nodup) : sortBy key order = sortBy key values := by
  refine List.Perm.eq_of_pairwise (fun first second firstMem secondMem below above => ?_)
    (sortBy_sorted order) (sortBy_sorted values)
    ((sortBy_perm order).trans (perm.trans (sortBy_perm values).symm))
  exact List.inj_on_of_nodup_map distinct (perm.mem_iff.mp (mem_sortBy.mp firstMem))
    (mem_sortBy.mp secondMem) (le_antisymm below above)

theorem filter_orderedInsert (shared : Key) (value : Value) (values : List Value)
    (sorted : values.Pairwise fun first second => key first ≤ key second) :
    (values.orderedInsert (fun first second => key first ≤ key second) value).filter
        (key · = shared) =
      (value :: values).filter (key · = shared) := by
  induction values with
  | nil => rfl
  | cons first rest ih =>
      rw [List.orderedInsert_cons]
      by_cases isBelow : key value ≤ key first
      · rw [if_pos isBelow]
      · rw [if_neg isBelow, List.filter_cons, ih sorted.of_cons]
        by_cases isFirst : key first = shared
        · have notValue : key value ≠ shared := fun isValue =>
            isBelow (isValue.trans isFirst.symm).le
          simp [isFirst, notValue]
        · simp only [isFirst, decide_false, List.filter_cons]
          simp

/-- The sort is stable. -/
theorem filter_sortBy (key : Value → Key) (shared : Key) (values : List Value) :
    (sortBy key values).filter (key · = shared) = values.filter (key · = shared) := by
  induction values with
  | nil => rfl
  | cons value rest ih =>
      have inserted := filter_orderedInsert shared value (sortBy key rest) (sortBy_sorted rest)
      rw [List.filter_cons, ih] at inserted
      rw [List.filter_cons]
      exact inserted

/-- A sorted list is known from what it holds of each key, in order. -/
theorem eq_of_sorted_of_filter {first second : List Value}
    (firstSorted : first.Pairwise fun left right => key left ≤ key right)
    (secondSorted : second.Pairwise fun left right => key left ≤ key right)
    (same : ∀ shared, first.filter (key · = shared) = second.filter (key · = shared)) :
    first = second := by
  induction first generalizing second with
  | nil =>
      cases second with
      | nil => rfl
      | cons other later =>
          have ofOther := same (key other)
          simp at ofOther
  | cons value rest ih =>
      cases second with
      | nil =>
          have ofValue := same (key value)
          simp at ofValue
      | cons other later =>
          rcases List.pairwise_cons.mp firstSorted with ⟨valueLeast, restSorted⟩
          rcases List.pairwise_cons.mp secondSorted with ⟨otherLeast, laterSorted⟩
          have valueThere : value ∈ other :: later := by
            have isThere : value ∈ (value :: rest).filter (key · = key value) := by simp
            rw [same] at isThere
            exact (List.mem_filter.mp isThere).1
          have otherThere : other ∈ value :: rest := by
            have isThere : other ∈ (other :: later).filter (key · = key other) := by simp
            rw [← same] at isThere
            exact (List.mem_filter.mp isThere).1
          have above : key other ≤ key value := by
            rcases List.mem_cons.mp valueThere with rfl | isLater
            · exact le_refl _
            · exact otherLeast value isLater
          have below : key value ≤ key other := by
            rcases List.mem_cons.mp otherThere with rfl | isLater
            · exact le_refl _
            · exact valueLeast other isLater
          have sameKey : key value = key other := le_antisymm below above
          have heads := same (key other)
          simp only [List.filter_cons, sameKey, decide_true, if_true] at heads
          obtain rfl : value = other := (List.cons.inj heads).1
          rw [ih restSorted laterSorted fun shared => ?_]
          have ofShared := same shared
          simp only [List.filter_cons] at ofShared
          split at ofShared
          · exact (List.cons.inj ofShared).2
          · exact ofShared

/-- Two values of one key come out in different orders if they come in different orders. -/
theorem sortBy_swap_ne {first second : Value} (different : first ≠ second)
    (sameKey : key first = key second) (rest : List Value) :
    sortBy key (first :: second :: rest) ≠ sortBy key (second :: first :: rest) := by
  intro isSame
  have filtered := congrArg (List.filter (key · = key second)) isSame
  rw [filter_sortBy, filter_sortBy] at filtered
  simp [sameKey, different] at filtered

/-- The first value of the sort with a property has the least key of those with it. -/
theorem find?_sortBy {p : Value → Bool} {values : List Value} {found : Value}
    (isFound : (sortBy key values).find? p = some found) :
    found ∈ values ∧ p found ∧ ∀ value ∈ values, p value → key found ≤ key value := by
  rcases List.find?_eq_some_iff_append.mp isFound with ⟨holds, before, after, isSplit, notBefore⟩
  have sorted : (sortBy key values).Pairwise fun first second => key first ≤ key second :=
    sortBy_sorted values
  rw [isSplit] at sorted
  refine ⟨mem_sortBy.mp (List.mem_of_find?_eq_some isFound), holds,
    fun value isThere valueHolds => ?_⟩
  have isSorted : value ∈ sortBy key values := mem_sortBy.mpr isThere
  rw [isSplit] at isSorted
  rcases List.mem_append.mp isSorted with isBefore | isAfter
  · have fails := notBefore value isBefore
    simp [valueHolds] at fails
  · rcases List.mem_cons.mp isAfter with rfl | isLater
    · exact le_refl _
    · exact (List.pairwise_cons.mp (List.pairwise_append.mp sorted).2.1).1 value isLater

/-- A value with a property, before all of its key and with the least key of those with the
property, is the first of the sort with it. -/
theorem find?_sortBy_cons {p : Value → Bool} {value : Value} {rest : List Value} (holds : p value)
    (least : ∀ other ∈ rest, p other → key value ≤ key other) :
    (sortBy key (value :: rest)).find? p = some value := by
  have stable : ((sortBy key (value :: rest)).filter (key · = key value)).find? p = some value := by
    rw [filter_sortBy]
    simp [holds]
  rw [List.find?_filter] at stable
  cases isFound : (sortBy key (value :: rest)).find? p with
  | none =>
      have fails := List.find?_eq_none.mp isFound value (mem_sortBy.mpr List.mem_cons_self)
      exact absurd holds fails
  | some found =>
      rcases find?_sortBy isFound with ⟨foundMem, foundHolds, foundLeast⟩
      have sameKey : key found = key value := by
        refine le_antisymm (foundLeast value List.mem_cons_self holds) ?_
        rcases List.mem_cons.mp foundMem with rfl | isLater
        · exact le_refl _
        · exact least found isLater foundHolds
      rcases List.find?_eq_some_iff_append.mp isFound with ⟨_, before, after, isSplit, notBefore⟩
      have alsoFound : (sortBy key (value :: rest)).find?
          (fun other => decide (key other = key value) && p other) = some found := by
        rw [List.find?_eq_some_iff_append]
        refine ⟨by simp [sameKey, foundHolds], before, after, isSplit, fun other isBefore => ?_⟩
        have fails := notBefore other isBefore
        simp only [Bool.not_eq_true'] at fails ⊢
        simp [fails]
      rw [← stable, ← alsoFound]
      congr 1
      funext other
      simp

end Aa.Library
