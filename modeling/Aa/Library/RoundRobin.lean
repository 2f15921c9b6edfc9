import Mathlib.Data.Int.CardIntervalMod
import Mathlib.Data.List.Dedup

/-!
# Dealing in turn

Values are dealt to places one after the other, and again from the first place on when every
place had its turn. Each value goes to one place, and no place gets two values more than another.
-/

namespace Aa.Library

variable {α : Type*} {count place : ℕ} {values : List α}

/-- The values that a place is dealt. -/
def deal (count : ℕ) (values : List α) (place : ℕ) : List α :=
  (values.zipIdx.filter fun dealt => dealt.2 % count = place).map Prod.fst

@[simp] theorem deal_nil : deal count ([] : List α) place = [] := rfl

/-- The next value goes to the place whose turn it is. -/
theorem deal_concat (value : α) :
    deal count (values ++ [value]) place =
      if values.length % count = place then deal count values place ++ [value]
      else deal count values place := by
  simp only [deal, List.zipIdx_append, List.filter_append, List.map_append]
  split_ifs with isTurn
  · simp [isTurn]
  · simp [isTurn]

theorem mem_deal {value : α} :
    value ∈ deal count values place ↔
      ∃ turn, values[turn]? = some value ∧ turn % count = place := by
  simp only [deal, List.mem_map, List.mem_filter, decide_eq_true_eq]
  constructor
  · rintro ⟨⟨dealt, turn⟩, ⟨isThere, isTurn⟩, rfl⟩
    exact ⟨turn, List.mem_zipIdx_iff_getElem?.mp isThere, isTurn⟩
  · rintro ⟨turn, isThere, isTurn⟩
    exact ⟨(value, turn), ⟨List.mem_zipIdx_iff_getElem?.mpr isThere, isTurn⟩, rfl⟩

theorem deal_sublist : (deal count values place).Sublist values := by
  have fronts : values.zipIdx.map Prod.fst = values := List.zipIdx_map_fst 0 values
  have isSublist : (deal count values place).Sublist (values.zipIdx.map Prod.fst) :=
    List.filter_sublist.map _
  rwa [fronts] at isSublist

/-- In a sorted list, values that are repeated come one after the other. -/
theorem exists_repeated [LinearOrder α] {values : List α} (sorted : values.Pairwise (· ≤ ·))
    (repeated : ¬ values.Nodup) :
    ∃ (turn : ℕ) (value : α), values[turn]? = some value ∧ values[turn + 1]? = some value := by
  induction values with
  | nil => simp at repeated
  | cons first rest ih =>
      by_cases again : rest.Nodup
      · have isThere : first ∈ rest := by
          by_contra notThere
          exact repeated (List.nodup_cons.mpr ⟨notThere, again⟩)
        cases rest with
        | nil => simp at isThere
        | cons second later =>
            have above : first ≤ second := (List.pairwise_cons.mp sorted).1 second List.mem_cons_self
            have below : second ≤ first := by
              rcases List.mem_cons.mp isThere with rfl | isLater
              · exact le_rfl
              · exact (List.pairwise_cons.mp (List.pairwise_cons.mp sorted).2).1 first isLater
            refine ⟨0, first, rfl, ?_⟩
            simp [le_antisymm above below]
      · rcases ih (List.pairwise_cons.mp sorted).2 again with ⟨turn, value, isFirst, isSecond⟩
        exact ⟨turn + 1, value, by simpa using isFirst, by simpa using isSecond⟩

/-- How much a place is dealt. -/
theorem length_deal (inside : place < count) :
    (deal count values place).length =
      values.length / count + if place < values.length % count then 1 else 0 := by
  have turns : (deal count values place).length =
      values.length.count fun turn => turn ≡ place [MOD count] := by
    induction values using List.reverseRecOn with
    | nil => simp
    | append_singleton values value ih =>
        rw [deal_concat, List.length_append, List.length_singleton, Nat.count_succ, ← ih]
        simp only [Nat.ModEq, Nat.mod_eq_of_lt inside]
        split_ifs <;> simp
  rw [turns, Nat.count_modEq_card _ (by omega), Nat.mod_eq_of_lt inside]

/-- No place is dealt two values more than another. -/
theorem length_deal_le {other : ℕ} (inside : place < count) (otherInside : other < count) :
    (deal count values place).length ≤ (deal count values other).length + 1 := by
  rw [length_deal inside, length_deal otherInside]
  split_ifs <;> omega

/-- Everything is dealt, and nothing twice. -/
theorem flatMap_deal_perm (positive : 0 < count) :
    ((List.range count).flatMap (deal count values)).Perm values := by
  induction values using List.reverseRecOn with
  | nil => simp
  | append_singleton values value ih =>
      have isTurn : values.length % count ∈ List.range count :=
        List.mem_range.mpr (Nat.mod_lt _ positive)
      rcases List.append_of_mem isTurn with ⟨before, after, isRange⟩
      have distinct : (before ++ values.length % count :: after).Nodup :=
        isRange ▸ List.nodup_range
      have others : ∀ places : List ℕ, values.length % count ∉ places →
          places.flatMap (deal count (values ++ [value])) = places.flatMap (deal count values) := by
        intro places isOther
        refine List.flatMap_congr fun place isPlace => ?_
        rw [deal_concat, if_neg]
        intro same
        exact isOther (same ▸ isPlace)
      have notBefore : values.length % count ∉ before := by
        intro isBefore
        exact (List.disjoint_of_nodup_append distinct) isBefore List.mem_cons_self
      have notAfter : values.length % count ∉ after :=
        (List.nodup_cons.mp (List.nodup_append.mp distinct).2.1).1
      rw [isRange, List.flatMap_append, List.flatMap_cons, others before notBefore,
        others after notAfter, deal_concat, if_pos rfl]
      rw [isRange, List.flatMap_append, List.flatMap_cons] at ih
      refine List.Perm.trans ?_ (ih.append_right [value])
      rw [List.append_assoc, List.append_assoc]
      refine List.Perm.append_left _ ?_
      rw [List.append_assoc]
      exact List.Perm.append_left _ List.perm_append_comm

end Aa.Library
