import Mathlib.Data.List.Basic

/-!
# Checks in a row

A validator makes its checks one after the other and returns the error of the first that
fails. It accepts exactly if each of its checks does.
-/

namespace Aa.Library.Checks

universe u v

variable {ε : Type u} {α : Type v} {first rest check : Except ε Unit}

theorem seq_iff : (first >>= fun _ => rest) = .ok () ↔ first = .ok () ∧ rest = .ok () := by
  cases first with
  | ok _ => exact ⟨fun accepted => ⟨rfl, accepted⟩, fun accepted => accepted.2⟩
  | error error => exact ⟨(fun no => nomatch no), fun no => nomatch no.1⟩

theorem ok_bind {β : Type} {value : β} {next : β → Except ε Unit} :
    (Except.ok value >>= next) = next value := rfl

theorem throw_iff {error : ε} : (throw error : Except ε Unit) = .ok () ↔ False :=
  ⟨(fun no => nomatch no), False.elim⟩

/-- A check that is made if a condition holds. -/
theorem optional_iff {condition : Prop} [Decidable condition] :
    (if condition then check >>= fun _ => rest else rest) = .ok () ↔
      (condition → check = .ok ()) ∧ rest = .ok () := by
  by_cases holds : condition
  · rw [if_pos holds, seq_iff]
    exact ⟨fun accepted => ⟨fun _ => accepted.1, accepted.2⟩,
      fun accepted => ⟨accepted.1 holds, accepted.2⟩⟩
  · rw [if_neg holds]
    exact ⟨fun accepted => ⟨fun no => absurd no holds, accepted⟩, fun accepted => accepted.2⟩

theorem optional_last_iff {condition : Prop} [Decidable condition] :
    (if condition then check else pure ()) = .ok () ↔ (condition → check = .ok ()) := by
  by_cases holds : condition
  · rw [if_pos holds]
    exact ⟨fun accepted _ => accepted, fun accepted => accepted holds⟩
  · rw [if_neg holds]
    exact ⟨fun _ no => absurd no holds, fun _ => rfl⟩

/-- Checks the items of a list in turn, each with its index. -/
def each (check : ℕ → α → Except ε Unit) : ℕ → List α → Except ε Unit
  | _, [] => .ok ()
  | index, item :: rest => do
      check index item
      each check (index + 1) rest

variable {checkItem : ℕ → α → Except ε Unit} {index : ℕ} {items : List α}

theorem each_of_forall (accepts : ∀ index, ∀ item ∈ items, checkItem index item = .ok ()) :
    each checkItem index items = .ok () := by
  induction items generalizing index with
  | nil => rfl
  | cons item rest ih =>
      refine seq_iff.mpr ⟨accepts index item List.mem_cons_self, ih fun index other isThere => ?_⟩
      exact accepts index other (List.mem_cons_of_mem _ isThere)

theorem forall_of_each (accepted : each checkItem index items = .ok ()) :
    ∀ item ∈ items, ∃ index, checkItem index item = .ok () := by
  induction items generalizing index with
  | nil => simp
  | cons item rest ih =>
      rcases seq_iff.mp accepted with ⟨here, later⟩
      exact List.forall_mem_cons.mpr ⟨⟨index, here⟩, ih later⟩

/-- Checks that do not depend on the index. -/
theorem each_iff {checkOnly : α → Except ε Unit} :
    each (fun _ => checkOnly) index items = .ok () ↔ ∀ item ∈ items, checkOnly item = .ok () := by
  refine ⟨fun accepted item isThere => ?_, fun accepts => each_of_forall fun _ => accepts⟩
  rcases forall_of_each accepted item isThere with ⟨_, here⟩
  exact here

end Aa.Library.Checks
