import Mathlib.Data.List.AList
import Aa.Library.GoText

/-!
# Registries of numbered objects

Objects that are stored under an owner and a number, and remembered under the key they were created
with. A create stores its object whether or not the number is taken: it adds to what is stored, and
leaves ids and numbers distinct, exactly if number and id are free.
-/

namespace Aa.Library

/-- What is stored, and the results of the creates by their keys. -/
structure Registry (Object : Type) where
  stored : GoMap (String × ℤ) Object
  remembered : GoMap String Object

namespace Registry

variable {Object : Type}

/-- Stores an object and remembers it. -/
def create (r : Registry Object) (slot : String × ℤ) (key : String) (object : Object) :
    Registry Object :=
  { stored := r.stored.insert slot object, remembered := r.remembered.insert key object }

/-- Stores an object. -/
def replace (r : Registry Object) (slot : String × ℤ) (object : Object) : Registry Object :=
  { r with stored := r.stored.insert slot object }

theorem lookup_insert_eq_some {stored : GoMap (String × ℤ) Object} {slot other : String × ℤ}
    {object found : Object} (isFound : (stored.insert slot object).lookup other = some found) :
    (other = slot ∧ found = object) ∨ (other ≠ slot ∧ stored.lookup other = some found) := by
  by_cases same : other = slot
  · subst same
    rw [AList.lookup_insert, Option.some.injEq] at isFound
    exact .inl ⟨rfl, isFound.symm⟩
  · rw [AList.lookup_insert_ne same] at isFound
    exact .inr ⟨same, isFound⟩

variable (id : Object → String) (number : Object → ℤ)

/-- The ids and the numbers of what is stored for one owner are pairwise distinct. -/
structure Distinct (r : Registry Object) : Prop where
  ids : ∀ owner first second x y, r.stored.lookup (owner, first) = some x →
    r.stored.lookup (owner, second) = some y → id x = id y → first = second
  numbers : ∀ owner first second x y, r.stored.lookup (owner, first) = some x →
    r.stored.lookup (owner, second) = some y → number x = number y → first = second

/-- What is stored is stored under its number. -/
def Numbered (r : Registry Object) : Prop :=
  ∀ owner n x, r.stored.lookup (owner, n) = some x → number x = n

/-- What is stored stays as it is, and what is remembered anew is stored where nothing was. -/
structure Extends (r after : Registry Object) : Prop where
  kept : ∀ slot x, r.stored.lookup slot = some x → after.stored.lookup slot = some x
  added : ∀ key x, key ∉ r.remembered → after.remembered.lookup key = some x →
    ∃ slot, slot ∉ r.stored ∧ after.stored.lookup slot = some x

/-- A number and an id that nothing stored for an owner has. -/
structure Free (r : Registry Object) (owner : String) (n : ℤ) (i : String) : Prop where
  slot : (owner, n) ∉ r.stored
  id : ∀ m y, r.stored.lookup (owner, m) = some y → id y ≠ i

theorem Extends.refl (r : Registry Object) : Extends r r := by
  refine ⟨fun _ _ isStored => isStored, ?_⟩
  intro key x isNew isRemembered
  exact absurd (AList.lookup_isSome.mp (by rw [isRemembered]; rfl)) isNew

theorem Numbered.empty : Numbered number ⟨∅, ∅⟩ := by
  intro owner n x isStored
  cases isStored

theorem Distinct.empty : Distinct id number ⟨∅, ∅⟩ := by
  constructor
  all_goals
    intro owner first second x y isStored
    cases isStored

variable {id number} {r : Registry Object}

theorem Numbered.distinct_numbers (numbered : Numbered number r) :
    ∀ owner first second x y, r.stored.lookup (owner, first) = some x →
      r.stored.lookup (owner, second) = some y → number x = number y → first = second := by
  intro owner first second x y isFirst isSecond same
  rw [← numbered owner first x isFirst, ← numbered owner second y isSecond, same]

theorem Numbered.insert (numbered : Numbered number r) {owner : String} {n : ℤ} {x : Object}
    (isNumber : number x = n) : Numbered number (r.replace (owner, n) x) := by
  intro other m y isStored
  rcases lookup_insert_eq_some isStored with ⟨isSlot, rfl⟩ | ⟨-, isStored⟩
  · cases isSlot
    exact isNumber
  · exact numbered other m y isStored

theorem Numbered.create (numbered : Numbered number r) {owner : String} {n : ℤ} {x : Object}
    (isNumber : number x = n) (key : String) : Numbered number (r.create (owner, n) key x) :=
  numbered.insert isNumber

/-- An object that takes the place of one of its id and number. -/
theorem Distinct.replace (numbered : Numbered number r) (distinct : Distinct id number r)
    {owner : String} {n : ℤ} {current x : Object} (isStored : r.stored.lookup (owner, n) = some current)
    (sameId : id x = id current) (isNumber : number x = n) :
    Distinct id number (r.replace (owner, n) x) := by
  refine ⟨?_, (numbered.insert isNumber).distinct_numbers⟩
  intro other first second y z isFirst isSecond same
  rcases lookup_insert_eq_some isFirst with ⟨isSlot, rfl⟩ | ⟨-, firstHeld⟩
  · cases isSlot
    rcases lookup_insert_eq_some isSecond with ⟨isSlot, -⟩ | ⟨-, secondHeld⟩
    · cases isSlot
      rfl
    · exact distinct.ids owner n second current z isStored secondHeld (sameId ▸ same)
  · rcases lookup_insert_eq_some isSecond with ⟨isSlot, rfl⟩ | ⟨-, secondHeld⟩
    · cases isSlot
      exact distinct.ids owner first n y current firstHeld isStored (same.trans sameId)
    · exact distinct.ids other first second y z firstHeld secondHeld same

/-- A create adds to what is stored exactly if its number and id are free. -/
theorem create_iff (numbered : Numbered number r) (distinct : Distinct id number r) (owner : String)
    {key : String} (isNew : key ∉ r.remembered) (x : Object) :
    Distinct id number (r.create (owner, number x) key x) ∧
        Extends r (r.create (owner, number x) key x) ↔
      Free id r owner (number x) (id x) := by
  generalize isNumber : number x = n
  have isStored : (r.create (owner, n) key x).stored.lookup (owner, n) = some x :=
    AList.lookup_insert _
  constructor
  · rintro ⟨after, grown⟩
    have isFree : (owner, n) ∉ r.stored := by
      have isRemembered : (r.create (owner, n) key x).remembered.lookup key = some x :=
        AList.lookup_insert _
      rcases grown.added key x isNew isRemembered with ⟨slot, isFree, isThere⟩
      rcases lookup_insert_eq_some isThere with ⟨rfl, -⟩ | ⟨-, isBefore⟩
      · exact isFree
      · exact absurd (AList.lookup_isSome.mp (by rw [isBefore]; rfl)) isFree
    refine ⟨isFree, ?_⟩
    intro m y isThere sameId
    have isAfter := grown.kept (owner, m) y isThere
    have sameSlot := after.ids owner m n y x isAfter isStored sameId
    rw [sameSlot] at isThere
    exact isFree (AList.lookup_isSome.mp (by rw [isThere]; rfl))
  · intro free
    have kept : ∀ slot y, r.stored.lookup slot = some y →
        (r.create (owner, n) key x).stored.lookup slot = some y := by
      intro slot y isThere
      have apart : slot ≠ (owner, n) := by
        rintro rfl
        exact free.slot (AList.lookup_isSome.mp (by rw [isThere]; rfl))
      exact (AList.lookup_insert_ne apart).trans isThere
    constructor
    · refine ⟨?_, (numbered.create isNumber key).distinct_numbers⟩
      intro other first second y z isFirst isSecond same
      rcases lookup_insert_eq_some isFirst with ⟨isSlot, rfl⟩ | ⟨-, firstHeld⟩
      · cases isSlot
        rcases lookup_insert_eq_some isSecond with ⟨isSlot, -⟩ | ⟨-, secondHeld⟩
        · cases isSlot
          rfl
        · exact absurd same.symm (free.id second z secondHeld)
      · rcases lookup_insert_eq_some isSecond with ⟨isSlot, rfl⟩ | ⟨-, secondHeld⟩
        · cases isSlot
          exact absurd same (free.id first y firstHeld)
        · exact distinct.ids other first second y z firstHeld secondHeld same
    · refine ⟨kept, ?_⟩
      intro other y isOther isRemembered
      by_cases isKey : other = key
      · subst isKey
        have isObject : y = x := by
          have isLast : (r.create (owner, n) other x).remembered.lookup other = some x :=
            AList.lookup_insert _
          exact Option.some.inj (isRemembered.symm.trans isLast)
        exact ⟨(owner, n), free.slot, isObject ▸ isStored⟩
      · have isBefore : r.remembered.lookup other = some y :=
          (AList.lookup_insert_ne isKey).symm.trans isRemembered
        exact absurd (AList.lookup_isSome.mp (by rw [isBefore]; rfl)) isOther

end Registry

end Aa.Library
