import Mathlib.Data.List.Forall2

/-!
# Lists related item by item

`List.Forall₂` relates two lists of one length, such as the values that a fallible function
is applied to one after the other and its results.
-/

namespace Aa.Library

theorem forall₂_mem_right {α β : Type} {related : α → β → Prop} {left : List α} {right : List β}
    (are : List.Forall₂ related left right) {second : β} (isSecond : second ∈ right) :
    ∃ first ∈ left, related first second := by
  induction are with
  | nil => cases isSecond
  | cons isRelated _ ih =>
      rcases List.mem_cons.mp isSecond with rfl | isLater
      · exact ⟨_, List.mem_cons_self, isRelated⟩
      · rcases ih isLater with ⟨first, isFirst, isRelated⟩
        exact ⟨first, List.mem_cons_of_mem _ isFirst, isRelated⟩

/-- Where no value fails, each is mapped. -/
theorem mapM_eq_map {α β ε : Type} {f : α → Except ε β} {g : α → β} {values : List α}
    (succeeds : ∀ value ∈ values, f value = .ok (g value)) :
    values.mapM f = .ok (values.map g) := by
  induction values with
  | nil => rfl
  | cons value rest ih =>
      rw [List.mapM_cons, succeeds value List.mem_cons_self,
        ih fun later isThere => succeeds later (List.mem_cons_of_mem value isThere)]
      rfl

/-- Where no value fails, the results belong to the values one by one. -/
theorem exists_mapM {α β ε : Type} {f : α → Except ε β} {values : List α}
    (succeeds : ∀ value ∈ values, ∃ result, f value = .ok result) :
    ∃ results, values.mapM f = .ok results ∧
      List.Forall₂ (fun value result => f value = .ok result) values results := by
  induction values with
  | nil => exact ⟨[], rfl, .nil⟩
  | cons value rest ih =>
      rcases succeeds value List.mem_cons_self with ⟨result, isResult⟩
      rcases ih fun later isThere => succeeds later (List.mem_cons_of_mem value isThere) with
        ⟨results, areResults, each⟩
      refine ⟨result :: results, ?_, .cons isResult each⟩
      rw [List.mapM_cons, isResult, areResults]
      rfl

/-- The results of a list are those of its values one by one. -/
theorem mapM_eq_ok_iff {α β ε : Type} {f : α → Except ε β} {values : List α} {results : List β} :
    values.mapM f = .ok results ↔
      List.Forall₂ (fun value result => f value = .ok result) values results := by
  constructor
  · intro isMapped
    have succeeds : ∀ value ∈ values, ∃ result, f value = .ok result := by
      induction values generalizing results with
      | nil => simp
      | cons value rest ih =>
          rw [List.mapM_cons] at isMapped
          cases isValue : f value with
          | error error => simp [isValue, bind, Except.bind] at isMapped
          | ok result =>
              cases isRest : rest.mapM f with
              | error error => simp [isValue, isRest, bind, Except.bind] at isMapped
              | ok later =>
                  intro other isOther
                  rcases List.mem_cons.mp isOther with rfl | isLater
                  · exact ⟨result, isValue⟩
                  · exact ih isRest other isLater
    rcases exists_mapM succeeds with ⟨others, isOthers, each⟩
    rw [isMapped] at isOthers
    cases isOthers
    exact each
  · intro each
    induction each with
    | nil => rfl
    | cons isResult _ ih =>
        rw [List.mapM_cons, isResult, ih]
        rfl

end Aa.Library
