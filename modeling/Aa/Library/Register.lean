import Mathlib.Data.List.Perm.Basic
import Mathlib.Data.List.Nodup
import Mathlib.Order.Lattice

/-!
# Guarded registers

A register holds at most one value, and a value offered to it replaces the held one
only when a guard says so. Replicas that receive the same values in different orders
agree when one value dominates: it replaces every other value, and no value replaces
it. For values offered once each the converse holds as well, so that domination is
exactly what order independence costs.

A ranked register takes a value of higher rank only. It ends with a value of the highest
rank offered, in every order the same one if the values have different ranks.
-/

namespace Aa.Library

universe u

/-- A register, given by the guard that lets an offered value replace the held one. -/
structure Register (Value : Type u) where
  replaces : Value → Value → Prop
  [decidable : DecidableRel replaces]

namespace Register

variable {Value : Type u} (register : Register Value)

instance : DecidableRel register.replaces := register.decidable

/-- The contents of the register after a value is offered to it. -/
def offer : Option Value → Value → Option Value
  | none, offered => some offered
  | some held, offered => if register.replaces held offered then some offered else some held

/-- The contents of the register after values are offered in order. -/
def offerAll (held : Option Value) (offered : List Value) : Option Value :=
  offered.foldl register.offer held

@[simp]
theorem offerAll_nil (held : Option Value) : register.offerAll held [] = held := rfl

@[simp]
theorem offerAll_cons (held : Option Value) (value : Value) (rest : List Value) :
    register.offerAll held (value :: rest) =
      register.offerAll (register.offer held value) rest := rfl

theorem offerAll_append (held : Option Value) (first second : List Value) :
    register.offerAll held (first ++ second) =
      register.offerAll (register.offerAll held first) second :=
  List.foldl_append

variable {register}

theorem offer_eq_or (held : Option Value) (value : Value) :
    register.offer held value = some value ∨ register.offer held value = held := by
  cases held with
  | none => exact Or.inl rfl
  | some held =>
      simp only [offer]
      split
      · exact Or.inl rfl
      · exact Or.inr rfl

/-- A value that no later one replaces stays. -/
theorem offerAll_of_kept {top : Value} {offered : List Value}
    (kept : ∀ value ∈ offered, ¬ register.replaces top value) :
    register.offerAll (some top) offered = some top := by
  induction offered with
  | nil => rfl
  | cons value rest ih =>
      have notReplaced : ¬ register.replaces top value := kept value (by simp)
      simp only [offerAll_cons, offer, if_neg notReplaced]
      exact ih fun value valueMem => kept value (by simp [valueMem])

/-- A value that every value the register can hold gives way to is what it holds in the
end. `holdable` bounds what the register can hold on the way. -/
theorem offerAll_of_absorbs {top : Value} {offered : List Value} {held : Option Value}
    (holdable : Value → Prop) (topMem : top ∈ offered)
    (absorbed : ∀ value, holdable value → value ≠ top → register.replaces value top)
    (kept : ∀ value ∈ offered, ¬ register.replaces top value)
    (carried : ∀ current, holdable current → ∀ value ∈ offered,
      register.replaces current value → holdable value)
    (starts : held = none → ∀ value ∈ offered, holdable value)
    (holds : ∀ value, held = some value → holdable value) :
    register.offerAll held offered = some top := by
  induction offered generalizing held with
  | nil => simp at topMem
  | cons value rest ih =>
      have keptRest : ∀ value ∈ rest, ¬ register.replaces top value :=
        fun value valueMem => kept value (by simp [valueMem])
      rw [offerAll_cons]
      by_cases isTop : value = top
      · have holdsTop : register.offer held value = some top := by
          rw [isTop]
          cases held with
          | none => rfl
          | some current =>
              simp only [offer]
              by_cases same : current = top
              · simp [same]
              · rw [if_pos (absorbed current (holds current rfl) same)]
        rw [holdsTop]
        exact offerAll_of_kept keptRest
      · have topRest : top ∈ rest := (List.mem_cons.mp topMem).resolve_left fun same =>
          isTop same.symm
        refine ih topRest keptRest ?_ ?_ ?_
        · intro current currentHoldable later laterMem
          exact carried current currentHoldable later (by simp [laterMem])
        · intro stillEmpty
          rcases offer_eq_or held value with taken | unchanged
          · rw [taken] at stillEmpty
            cases stillEmpty
          · intro later laterMem
            exact starts (unchanged.symm.trans stillEmpty) later (by simp [laterMem])
        · intro current currentEq
          cases held with
          | none =>
              cases currentEq
              exact starts rfl value (by simp)
          | some before =>
              simp only [offer] at currentEq
              split at currentEq
              · rename_i replaced
                cases currentEq
                exact carried before (holds before rfl) value (by simp) replaced
              · exact holds current currentEq

/-- A dominating value is what the register holds in the end. -/
theorem offerAll_of_dominates {top : Value} {offered : List Value} {held : Option Value}
    (topMem : top ∈ offered)
    (replaced : ∀ value ∈ offered, value ≠ top → register.replaces value top)
    (kept : ∀ value ∈ offered, ¬ register.replaces top value)
    (heldReplaced : ∀ value, held = some value → value ≠ top → register.replaces value top) :
    register.offerAll held offered = some top :=
  offerAll_of_absorbs (fun value => value ≠ top → register.replaces value top) topMem
    (fun _ givesWay => givesWay) kept (fun _ _ value valueMem _ => replaced value valueMem)
    (fun _ value valueMem => replaced value valueMem) heldReplaced

/-- A value that is neither held nor offered is never held. -/
theorem offerAll_ne_of_not_mem {top : Value} {offered : List Value} {held : Option Value}
    (notHeld : held ≠ some top) (notOffered : top ∉ offered) :
    register.offerAll held offered ≠ some top := by
  induction offered generalizing held with
  | nil => exact notHeld
  | cons value rest ih =>
      rw [offerAll_cons]
      refine ih ?_ ?_
      · rcases offer_eq_or held value with taken | unchanged
        · rw [taken]
          intro isTop
          exact notOffered (by simp [Option.some.inj isTop])
        · rwa [unchanged]
      · intro later
        exact notOffered (by simp [later])

/-- Values offered once each to an empty register, in any order, leave a value that
none of them replaces exactly when it replaces each of the others. -/
theorem forall_perm_offerAll_iff {top : Value} {values : List Value} (nodup : values.Nodup)
    (topMem : top ∈ values) (kept : ∀ value ∈ values, ¬ register.replaces top value) :
    (∀ order : List Value, order.Perm values → register.offerAll none order = some top) ↔
      ∀ value ∈ values, value ≠ top → register.replaces value top := by
  classical
  constructor
  · intro converges value valueMem notTop
    by_contra notReplaced
    -- The value first, then the top: the top is turned away and never offered again.
    have topRest : top ∈ values.erase value := (List.mem_erase_of_ne notTop.symm).mpr topMem
    have order : (value :: top :: (values.erase value).erase top).Perm values :=
      ((List.perm_cons_erase topRest).symm.cons value).trans (List.perm_cons_erase valueMem).symm
    have notAgain : top ∉ (values.erase value).erase top :=
      (nodup.erase value).not_mem_erase
    have final := converges _ order
    simp only [offerAll_cons, offer, if_neg notReplaced] at final
    exact offerAll_ne_of_not_mem (by simpa using notTop) notAgain final
  · intro dominates order perm
    refine offerAll_of_dominates (perm.mem_iff.mpr topMem) ?_ ?_ (by simp)
    · intro value valueMem
      exact dominates value (perm.mem_iff.mp valueMem)
    · intro value valueMem
      exact kept value (perm.mem_iff.mp valueMem)

/-! ## Ranked registers -/

section Ranked

variable {Rank : Type*} [LinearOrder Rank] {rank : Value → Rank}

/-- The register in which a value gives way to values of higher rank. -/
def ranked (rank : Value → Rank) : Register Value where
  replaces held offered := rank held < rank offered

theorem offer_ranked (held value : Value) :
    (ranked rank).offer (some held) value = if rank held < rank value then some value else some held :=
  rfl

/-- What the register holds in the end was held or offered, and has the highest rank of all. -/
theorem offerAll_ranked_some (rank : Value → Rank) (held : Value) (offered : List Value) :
    ∃ top ∈ held :: offered, (ranked rank).offerAll (some held) offered = some top ∧
      ∀ value ∈ held :: offered, rank value ≤ rank top := by
  induction offered generalizing held with
  | nil => exact ⟨held, by simp, rfl, by simp⟩
  | cons value rest ih =>
      rw [offerAll_cons, offer_ranked]
      by_cases higher : rank held < rank value
      · rw [if_pos higher]
        rcases ih value with ⟨top, topMem, isTop, highest⟩
        refine ⟨top, List.mem_cons_of_mem _ topMem, isTop, ?_⟩
        intro other otherMem
        rcases List.mem_cons.mp otherMem with rfl | later
        · exact le_trans (le_of_lt higher) (highest value (by simp))
        · exact highest other later
      · rw [if_neg higher]
        rcases ih held with ⟨top, topMem, isTop, highest⟩
        refine ⟨top, ?_, isTop, ?_⟩
        · rcases List.mem_cons.mp topMem with rfl | later
          · simp
          · simp [later]
        · intro other otherMem
          rcases List.mem_cons.mp otherMem with rfl | later
          · exact highest other (by simp)
          · rcases List.mem_cons.mp later with rfl | later
            · exact le_trans (not_lt.mp higher) (highest held (by simp))
            · exact highest other (by simp [later])

theorem offerAll_ranked_eq_some {offered : List Value} {top : Value}
    (isTop : (ranked rank).offerAll none offered = some top) :
    top ∈ offered ∧ ∀ value ∈ offered, rank value ≤ rank top := by
  cases offered with
  | nil => cases isTop
  | cons value rest =>
      rcases offerAll_ranked_some rank value rest with ⟨other, otherMem, isOther, highest⟩
      have same : some other = some top := isOther.symm.trans isTop
      cases same
      exact ⟨otherMem, highest⟩

theorem offerAll_ranked_eq_none {offered : List Value} :
    (ranked rank).offerAll none offered = none ↔ offered = [] := by
  cases offered with
  | nil => simp
  | cons value rest =>
      rcases offerAll_ranked_some rank value rest with ⟨top, _, isTop, _⟩
      have isSome : (ranked rank).offerAll none (value :: rest) = some top := isTop
      simp [isSome]

/-- Values of different ranks leave the same value in every order. -/
theorem offerAll_ranked_perm {offered order : List Value} (perm : order.Perm offered)
    (distinct : ∀ first ∈ offered, ∀ second ∈ offered, rank first = rank second → first = second) :
    (ranked rank).offerAll none order = (ranked rank).offerAll none offered := by
  cases isTop : (ranked rank).offerAll none order with
  | none =>
      have isEmpty := offerAll_ranked_eq_none.mp isTop
      subst isEmpty
      rw [List.nil_perm.mp perm]
      rfl
  | some top =>
      cases isOther : (ranked rank).offerAll none offered with
      | none =>
          have isEmpty := offerAll_ranked_eq_none.mp isOther
          subst isEmpty
          rw [List.perm_nil.mp perm] at isTop
          cases isTop
      | some other =>
          rcases offerAll_ranked_eq_some isTop with ⟨topMem, topHighest⟩
          rcases offerAll_ranked_eq_some isOther with ⟨otherMem, otherHighest⟩
          have topOffered := perm.mem_iff.mp topMem
          have sameRank := le_antisymm (otherHighest top topOffered)
            (topHighest other (perm.mem_iff.mpr otherMem))
          rw [distinct top topOffered other otherMem sameRank]

end Ranked

end Register

end Aa.Library
