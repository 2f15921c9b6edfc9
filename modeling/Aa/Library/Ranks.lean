import Aa.Library.StableSort

/-!
# Ranks and beginnings of a sorted list

In a list sorted by different keys, the place of a value is the number of the values with a
smaller key. A beginning of a stably sorted list holds the values with a smaller key than its last
one has, and the first few of those with the same key.
-/

namespace Aa.Library

variable {Value Key : Type*} [LinearOrder Key] {key : Value → Key} {values : List Value}
  {value : Value} {place : ℕ}

/-- How many of the values have a key below a bound. -/
def rankBelow (key : Value → Key) (values : List Value) (bound : Key) : ℕ :=
  (values.filter (key · < bound)).length

theorem rankBelow_perm {order : List Value} (perm : order.Perm values) (bound : Key) :
    rankBelow key order bound = rankBelow key values bound :=
  (perm.filter _).length_eq

theorem split_at (isThere : values[place]? = some value) :
    values = values.take place ++ value :: values.drop (place + 1) ∧ place < values.length := by
  rcases List.getElem?_eq_some_iff.mp isThere with ⟨inside, isValue⟩
  refine ⟨?_, inside⟩
  rw [← isValue, ← List.drop_eq_getElem_cons inside, List.take_append_drop]

/-- Before a value of an ascending list stand those with smaller keys. -/
theorem filter_below_of_ascending {before after : List Value}
    (ascending : (before ++ value :: after).Pairwise fun first second => key first < key second) :
    (before ++ value :: after).filter (key · < key value) = before := by
  rcases List.pairwise_append.mp ascending with ⟨_, later, across⟩
  rcases List.pairwise_cons.mp later with ⟨above, _⟩
  have allBefore : before.filter (key · < key value) = before := by
    apply List.filter_eq_self.mpr
    intro other isBefore
    simpa using across other isBefore value List.mem_cons_self
  have noneAfter : (value :: after).filter (key · < key value) = [] := by
    apply List.filter_eq_nil_iff.mpr
    intro other isLater
    rcases List.mem_cons.mp isLater with rfl | isAfter
    · simp
    · simpa using (above other isAfter).le
  rw [List.filter_append, allBefore, noneAfter, List.append_nil]

theorem sortBy_ascending (distinct : (values.map key).Nodup) :
    (sortBy key values).Pairwise fun first second => key first < key second := by
  have different : (sortBy key values).Pairwise fun first second => key first ≠ key second := by
    apply List.pairwise_map.mp
    exact ((sortBy_perm values).map key).nodup_iff.mpr distinct
  apply ((sortBy_sorted values).and different).imp
  intro first second ⟨below, apart⟩
  exact lt_of_le_of_ne below apart

/-- The place of a value is its rank. -/
theorem place_eq_rankBelow (distinct : (values.map key).Nodup)
    (isThere : (sortBy key values)[place]? = some value) :
    place = rankBelow key values (key value) := by
  rcases split_at isThere with ⟨isSplit, inside⟩
  have ascending := sortBy_ascending distinct
  have perm : (sortBy key values).Perm values := sortBy_perm values
  rw [isSplit] at ascending
  rw [← rankBelow_perm perm, rankBelow, isSplit, filter_below_of_ascending ascending,
    List.length_take]
  omega

/-! ## Beginnings -/

/-- The values with a smaller key, and the first few of those that share the key. -/
def upTo (key : Value → Key) (values : List Value) (bound : Key) (count : ℕ) : List Value :=
  values.filter (key · < bound) ++ (values.filter (key · = bound)).take count

theorem filter_upTo (bound shared : Key) (count : ℕ) :
    (upTo key values bound count).filter (key · = shared) =
      if shared < bound then values.filter (key · = shared)
      else if shared = bound then (values.filter (key · = bound)).take count
      else [] := by
  have ofShared {chosen : List Value} {other : Key} (allOther : ∀ value ∈ chosen, key value = other)
      (apart : other ≠ shared) : chosen.filter (key · = shared) = [] := by
    apply List.filter_eq_nil_iff.mpr
    intro value isThere
    simpa [allOther value isThere] using apart
  have shares : ∀ value ∈ (values.filter (key · = bound)).take count, key value = bound := by
    intro value isThere
    simpa using (List.mem_filter.mp (List.mem_of_mem_take isThere)).2
  rw [upTo, List.filter_append, List.filter_filter]
  rcases lt_trichotomy shared bound with below | rfl | above
  · rw [if_pos below, ofShared shares below.ne', List.append_nil]
    apply List.filter_congr
    intro value _
    by_cases isShared : key value = shared
    · simp [isShared, below]
    · simp [isShared]
  · have allShare : ((values.filter (key · = shared)).take count).filter (key · = shared) =
        (values.filter (key · = shared)).take count :=
      List.filter_eq_self.mpr fun value isThere => decide_eq_true (shares value isThere)
    have noneBelow : (values.filter fun value => decide (key value = shared) &&
        decide (key value < shared)) = [] := by
      apply List.filter_eq_nil_iff.mpr
      intro value _
      simp only [Bool.and_eq_true, decide_eq_true_eq, not_and]
      intro isShared
      simp [isShared]
    rw [if_neg (lt_irrefl _), if_pos rfl, allShare, noneBelow, List.nil_append]
  · rw [if_neg above.not_gt, if_neg above.ne', ofShared shares above.ne, List.append_nil]
    apply List.filter_eq_nil_iff.mpr
    intro value _
    simp only [Bool.and_eq_true, decide_eq_true_eq, not_and]
    intro isShared
    simpa [isShared] using above.le

/-- A beginning of a sorted list, read off the list that was sorted. -/
theorem take_sortBy (isThere : (sortBy key values)[place]? = some value) :
    ∃ count, 0 < count ∧ (values.filter (key · = key value))[count - 1]? = some value ∧
      (sortBy key values).take (place + 1) = sortBy key (upTo key values (key value) count) ∧
      ((∀ earlier ∈ (sortBy key values).take place, key earlier ≠ key value) → count = 1) := by
  rcases split_at isThere with ⟨isSplit, inside⟩
  have isTake : (sortBy key values).take (place + 1) = (sortBy key values).take place ++ [value] := by
    rw [List.take_add_one, isThere]
    rfl
  have sorted : (sortBy key values).Pairwise fun first second => key first ≤ key second :=
    sortBy_sorted values
  refine ⟨(((sortBy key values).take (place + 1)).filter (key · = key value)).length, ?_, ?_, ?_, ?_⟩
  · simp [isTake, List.filter_append]
  · have whole : values.filter (key · = key value) =
        ((sortBy key values).take place).filter (key · = key value) ++
          value :: ((sortBy key values).drop (place + 1)).filter (key · = key value) := by
      rw [← filter_sortBy]
      conv_lhs => rw [isSplit]
      simp [List.filter_append]
    rw [whole, isTake]
    simp [List.filter_append]
  · apply eq_of_sorted_of_filter (sorted.sublist (List.take_sublist _ _)) (sortBy_sorted _)
    intro shared
    rw [filter_sortBy, filter_upTo]
    have whole : ((sortBy key values).take (place + 1)).filter (key · = shared) ++
        ((sortBy key values).drop (place + 1)).filter (key · = shared) =
          values.filter (key · = shared) := by
      rw [← List.filter_append, List.take_append_drop, filter_sortBy]
    rw [isSplit] at sorted
    rcases List.pairwise_append.mp sorted with ⟨_, later, across⟩
    rcases List.pairwise_cons.mp later with ⟨notBelow, _⟩
    split_ifs with below isLast
    · -- What comes later has no smaller key.
      have noneLater : ((sortBy key values).drop (place + 1)).filter (key · = shared) = [] := by
        apply List.filter_eq_nil_iff.mpr
        intro other isLater
        have notLess := notBelow other isLater
        simp only [decide_eq_true_eq]
        rintro rfl
        exact absurd below notLess.not_gt
      rw [← whole, noneLater, List.append_nil]
    · rw [isLast] at whole ⊢
      rw [← whole, List.take_left]
    · apply List.filter_eq_nil_iff.mpr
      intro other isEarlier
      have notMore : key other ≤ key value := by
        rw [isTake] at isEarlier
        rcases List.mem_append.mp isEarlier with isBefore | isValue
        · exact across other isBefore value List.mem_cons_self
        · rw [List.mem_singleton.mp isValue]
      simp only [decide_eq_true_eq]
      rintro rfl
      rcases notMore.lt_or_eq with isBelow | isSame
      · exact below isBelow
      · exact isLast isSame
  · intro noneEarlier
    have noneBefore : ((sortBy key values).take place).filter (key · = key value) = [] := by
      apply List.filter_eq_nil_iff.mpr
      intro other isBefore
      simpa using noneEarlier other isBefore
    simp [isTake, List.filter_append, noneBefore]

end Aa.Library
