import Aa.Library.JsonTree
import Aa.Library.PyText

/-!
# JSON values as Python has them

What `float`, `int`, `bool` and `str` make of a value read from JSON: integers of any size,
doubles with the infinities and NaN, texts, lists and dicts. Each conversion says which exception
it raises.
-/

namespace Aa.Library

open Binary64

/-- The exceptions that a conversion raises. -/
inductive PyError
  | typeError
  | valueError
  | overflowError
  | recursionError
  deriving DecidableEq

/-- A `float`. -/
inductive PyFloat
  | finite (double : JsonNumber.Double)
  | infinite (negative : Bool)
  | nan
  deriving DecidableEq

/-- A number of a JSON text: `json` reads an `int` where there is no point and no exponent. -/
inductive PyNumber
  | int (value : ℤ)
  | float (value : PyFloat)
  deriving DecidableEq

/-- A value of a JSON text; an object is a `dict` with the members of the list. -/
abbrev PyValue := JsonTree PyNumber String

/-- What an interpreter makes of texts, and the calls its stack has room for. -/
structure PyInterpreter where
  int : String → Option ℤ
  float : String → Option PyFloat
  quoted : String → String
  floatText : PyFloat → String
  depth : ℕ

/-- The exact value of a double. -/
def JsonNumber.Double.value (double : JsonNumber.Double) : ℚ :=
  if double.negative then -double.magnitude else double.magnitude

namespace PyFloat

/-- `float(value)` of an integer, which is rounded to the nearest double. -/
def ofInt (value : ℤ) : Except PyError PyFloat :=
  match isNearest : nearest (value.natAbs : ℚ) with
  | none => .error .overflowError
  | some magnitude =>
      .ok <| .finite
        { negative := value < 0
          magnitude := magnitude
          nonneg := nearest_nonneg (Nat.cast_nonneg _) isNearest
          isDouble := nearest_of_nearest (Nat.cast_nonneg _) isNearest }

/-- An integer is converted unless it is too large for a double. -/
theorem ofInt_eq_error_iff {value : ℤ} {error : PyError} :
    ofInt value = .error error ↔
      (2 ^ 54 - 1) * 2 ^ 970 ≤ value.natAbs ∧ error = .overflowError := by
  rw [← nearest_natCast_eq_none_iff]
  unfold ofInt
  split
  · rename_i isNone
    simp only [isNone, true_and, Except.error.injEq]
    exact eq_comm
  · rename_i magnitude isSome
    simp only [isSome, reduceCtorEq, false_and]

end PyFloat

namespace PyValue

/-- `bool(value)`. -/
def truthy : PyValue → Bool
  | .null => false
  | .bool value => value
  | .num (.int value) => value ≠ 0
  | .num (.float (.finite double)) => double.magnitude ≠ 0
  | .num (.float (.infinite _)) => true
  | .num (.float .nan) => true
  | .str text => text ≠ ""
  | .arr items => !items.isEmpty
  | .obj members => !members.isEmpty

/-- `float(value)`. -/
def float (interpreter : PyInterpreter) : PyValue → Except PyError PyFloat
  | .null => .error .typeError
  | .bool value => PyFloat.ofInt (if value then 1 else 0)
  | .num (.int value) => PyFloat.ofInt value
  | .num (.float value) => .ok value
  | .str text =>
      match interpreter.float text with
      | some value => .ok value
      | none => .error .valueError
  | .arr _ => .error .typeError
  | .obj _ => .error .typeError

/-- `int(value)`; a double is cut towards zero. -/
def int (interpreter : PyInterpreter) : PyValue → Except PyError ℤ
  | .null => .error .typeError
  | .bool value => .ok (if value then 1 else 0)
  | .num (.int value) => .ok value
  | .num (.float (.finite double)) =>
      .ok (if double.negative then -⌊double.magnitude⌋ else ⌊double.magnitude⌋)
  | .num (.float (.infinite _)) => .error .overflowError
  | .num (.float .nan) => .error .valueError
  | .str text =>
      match interpreter.int text with
      | some value => .ok value
      | none => .error .valueError
  | .arr _ => .error .typeError
  | .obj _ => .error .typeError

/-- The member of a `dict`, `None` if there is none. -/
def get (members : List (String × PyValue)) (name : String) : PyValue :=
  (members.lookup name).getD .null

/-! ## Conversions that raise -/

/-- `except (TypeError, ValueError)`: what is left of a computation where both are handled. -/
def handled {α : Type} (default : α) : Except PyError α → Except PyError α
  | .ok value => .ok value
  | .error .typeError => .ok default
  | .error .valueError => .ok default
  | .error error => .error error

theorem handled_eq_ok {α : Type} {default value : α} {computed : Except PyError α}
    (isOk : handled default computed = .ok value) : value = default ∨ computed = .ok value := by
  cases computed with
  | ok result => exact .inr isOk
  | error error =>
      cases error with
      | typeError => exact .inl (Except.ok.inj isOk).symm
      | valueError => exact .inl (Except.ok.inj isOk).symm
      | overflowError => cases isOk
      | recursionError => cases isOk

/-- An integer that is too large for a double. -/
def TooLarge : PyValue → Prop
  | .num (.int value) => (2 ^ 54 - 1) * 2 ^ 970 ≤ value.natAbs
  | _ => False

/-- A double without an integer part. -/
def Infinite : PyValue → Prop
  | .num (.float (.infinite _)) => True
  | _ => False

theorem truthy_of_infinite {value : PyValue} (isInfinite : value.Infinite) :
    value.truthy = true := by
  cases value with
  | num number =>
      cases number with
      | int value => cases isInfinite
      | float value =>
          cases value with
          | infinite negative => rfl
          | finite double => cases isInfinite
          | nan => cases isInfinite
  | null => cases isInfinite
  | bool value => cases isInfinite
  | str text => cases isInfinite
  | arr items => cases isInfinite
  | obj members => cases isInfinite

/-- `float` raises what the handler does not name exactly for an integer that is too large. -/
theorem handled_float_iff {α : Type} {interpreter : PyInterpreter} {value : PyValue} {default : α}
    {use : PyFloat → α} :
    (∃ result, handled default ((value.float interpreter).map use) = .ok result) ↔
      ¬ value.TooLarge := by
  have ofInt_ok {number : ℤ} : (∃ result, handled default ((PyFloat.ofInt number).map use) =
      .ok result) ↔ ¬ (2 ^ 54 - 1) * 2 ^ 970 ≤ number.natAbs := by
    cases isConverted : PyFloat.ofInt number with
    | ok converted =>
        have notLarge : ¬ (2 ^ 54 - 1) * 2 ^ 970 ≤ number.natAbs := by
          intro isLarge
          rw [PyFloat.ofInt_eq_error_iff.mpr ⟨isLarge, rfl⟩] at isConverted
          cases isConverted
        exact ⟨fun _ => notLarge, fun _ => ⟨_, rfl⟩⟩
    | error error =>
        rcases PyFloat.ofInt_eq_error_iff.mp isConverted with ⟨isLarge, rfl⟩
        refine ⟨?_, fun notLarge => absurd isLarge notLarge⟩
        rintro ⟨result, ⟨⟩⟩
  have always {computed : Except PyError PyFloat}
      (isHandled : ∀ error, computed = .error error → error = .typeError ∨ error = .valueError) :
      ∃ result, handled default (computed.map use) = .ok result := by
    cases computed with
    | ok converted => exact ⟨_, rfl⟩
    | error error =>
        rcases isHandled error rfl with rfl | rfl
        · exact ⟨_, rfl⟩
        · exact ⟨_, rfl⟩
  cases value with
  | null => exact ⟨fun _ => id, fun _ => always (by simp [float])⟩
  | bool value =>
      refine ofInt_ok.trans ⟨fun _ => id, fun _ => ?_⟩
      cases value with
      | true => decide +kernel
      | false => decide +kernel
  | num number =>
      cases number with
      | int value => exact ofInt_ok
      | float value => exact ⟨fun _ => id, fun _ => ⟨_, rfl⟩⟩
  | str text =>
      refine ⟨fun _ => id, fun _ => always fun error isError => ?_⟩
      simp only [float] at isError
      split at isError
      · cases isError
      · exact .inr (Except.error.inj isError).symm
  | arr items => exact ⟨fun _ => id, fun _ => always (by simp [float])⟩
  | obj members => exact ⟨fun _ => id, fun _ => always (by simp [float])⟩

/-- `int` raises what the handler does not name exactly for an infinite double. -/
theorem handled_int_iff {α : Type} {interpreter : PyInterpreter} {value : PyValue} {default : α}
    {use : ℤ → α} :
    (∃ result, handled default ((value.int interpreter).map use) = .ok result) ↔
      ¬ value.Infinite := by
  cases value with
  | null => exact ⟨fun _ => id, fun _ => ⟨_, rfl⟩⟩
  | bool value => exact ⟨fun _ => id, fun _ => ⟨_, rfl⟩⟩
  | num number =>
      cases number with
      | int value => exact ⟨fun _ => id, fun _ => ⟨_, rfl⟩⟩
      | float value =>
          cases value with
          | finite double => exact ⟨fun _ => id, fun _ => ⟨_, rfl⟩⟩
          | infinite negative =>
              refine ⟨?_, fun notInfinite => absurd trivial notInfinite⟩
              rintro ⟨result, ⟨⟩⟩
          | nan => exact ⟨fun _ => id, fun _ => ⟨_, rfl⟩⟩
  | str text =>
      refine ⟨fun _ => id, fun _ => ?_⟩
      simp only [int]
      split
      · exact ⟨_, rfl⟩
      · exact ⟨_, rfl⟩
  | arr items => exact ⟨fun _ => id, fun _ => ⟨_, rfl⟩⟩
  | obj members => exact ⟨fun _ => id, fun _ => ⟨_, rfl⟩⟩

/-! ## Texts of values -/

/-- The digits that an integer may have to be written. -/
def maxStrDigits : ℕ := 4300

mutual

/-- `repr(value)` with room for `depth` nested calls. -/
def repr (interpreter : PyInterpreter) : ℕ → PyValue → Except PyError String
  | 0, _ => .error .recursionError
  | _ + 1, .null => .ok "None"
  | _ + 1, .bool value => .ok (if value then "True" else "False")
  | _ + 1, .num (.int value) =>
      if value.natAbs < 10 ^ maxStrDigits then .ok (toString value) else .error .valueError
  | _ + 1, .num (.float value) => .ok (interpreter.floatText value)
  | _ + 1, .str text => .ok (interpreter.quoted text)
  | depth + 1, .arr items => do
      let texts ← reprItems interpreter depth items
      pure ("[" ++ Py.join ", " texts ++ "]")
  | depth + 1, .obj members => do
      let texts ← reprMembers interpreter depth members
      pure ("\x7b" ++ Py.join ", " texts ++ "\x7d")

def reprItems (interpreter : PyInterpreter) : ℕ → List PyValue → Except PyError (List String)
  | _, [] => .ok []
  | depth, item :: items => do
      let text ← repr interpreter depth item
      let texts ← reprItems interpreter depth items
      pure (text :: texts)

def reprMembers (interpreter : PyInterpreter) :
    ℕ → List (String × PyValue) → Except PyError (List String)
  | _, [] => .ok []
  | depth, (name, value) :: members => do
      let text ← repr interpreter depth value
      let texts ← reprMembers interpreter depth members
      pure ((interpreter.quoted name ++ ": " ++ text) :: texts)

end

/-- What a format string writes for a value. -/
def formatted (interpreter : PyInterpreter) : PyValue → Except PyError String
  | .str text => .ok text
  | value => repr interpreter interpreter.depth value

mutual

/-- The nested calls that writing a value takes. -/
def nesting : PyValue → ℕ
  | .arr items => nestingItems items + 1
  | .obj members => nestingMembers members + 1
  | _ => 1

def nestingItems : List PyValue → ℕ
  | [] => 0
  | item :: items => max (nesting item) (nestingItems items)

def nestingMembers : List (String × PyValue) → ℕ
  | [] => 0
  | (_, value) :: members => max (nesting value) (nestingMembers members)

end

/-- An integer with few enough digits. -/
def Short : PyNumber → Prop
  | .int value => value.natAbs < 10 ^ maxStrDigits
  | .float _ => True

/-- All integers of a value are short. -/
abbrev AllShort : PyValue → Prop := JsonTree.All Short fun _ => True

theorem nesting_pos (value : PyValue) : 0 < nesting value := by
  cases value <;> simp [nesting]

theorem nestingItems_le_iff {items : List PyValue} {depth : ℕ} :
    nestingItems items ≤ depth ↔ ∀ item ∈ items, nesting item ≤ depth := by
  induction items with
  | nil => simp [nestingItems]
  | cons item items ih => simp [nestingItems, ih]

theorem nestingMembers_le_iff {members : List (String × PyValue)} {depth : ℕ} :
    nestingMembers members ≤ depth ↔ ∀ member ∈ members, nesting member.2 ≤ depth := by
  induction members with
  | nil => simp [nestingMembers]
  | cons member members ih => simp [nestingMembers, ih]

section Bind

variable {ε α β : Type} {computed : Except ε α}

theorem bind_eq_ok_iff {rest : α → Except ε β} {result : β} :
    (computed >>= rest) = .ok result ↔ ∃ value, computed = .ok value ∧ rest value = .ok result := by
  cases computed with
  | ok value =>
      constructor
      · intro isOk
        exact ⟨value, rfl, isOk⟩
      · rintro ⟨_, ⟨⟩, isOk⟩
        exact isOk
  | error error =>
      constructor
      · rintro ⟨⟩
      · rintro ⟨_, ⟨⟩, _⟩

theorem bind_ok_iff {rest : α → Except ε β} :
    (∃ result, (computed >>= rest) = .ok result) ↔
      ∃ value, computed = .ok value ∧ ∃ result, rest value = .ok result := by
  simp only [bind_eq_ok_iff]
  constructor
  · rintro ⟨result, value, isValue, isResult⟩
    exact ⟨value, isValue, result, isResult⟩
  · rintro ⟨value, isValue, result, isResult⟩
    exact ⟨result, value, isValue, isResult⟩

theorem bind_pure_ok_iff {use : α → β} :
    (∃ result, (do
        let value ← computed
        pure (use value)) = .ok result) ↔ ∃ value, computed = .ok value := by
  constructor
  · rintro ⟨result, isOk⟩
    rcases bind_eq_ok_iff.mp isOk with ⟨value, isValue, _⟩
    exact ⟨value, isValue⟩
  · rintro ⟨value, isValue⟩
    exact ⟨use value, bind_eq_ok_iff.mpr ⟨value, isValue, rfl⟩⟩

end Bind

theorem reprItems_ok_iff {interpreter : PyInterpreter} {depth : ℕ} {items : List PyValue} :
    (∃ texts, reprItems interpreter depth items = .ok texts) ↔
      ∀ item ∈ items, ∃ text, repr interpreter depth item = .ok text := by
  induction items with
  | nil => simp [reprItems]
  | cons item items ih =>
      rw [List.forall_mem_cons, ← ih, reprItems]
      cases repr interpreter depth item with
      | ok text =>
          refine bind_pure_ok_iff.trans ⟨fun isOk => ⟨⟨text, rfl⟩, isOk⟩, fun isOk => isOk.2⟩
      | error error =>
          constructor
          · rintro ⟨texts, ⟨⟩⟩
          · rintro ⟨⟨text, ⟨⟩⟩, _⟩

theorem reprMembers_ok_iff {interpreter : PyInterpreter} {depth : ℕ}
    {members : List (String × PyValue)} :
    (∃ texts, reprMembers interpreter depth members = .ok texts) ↔
      ∀ member ∈ members, ∃ text, repr interpreter depth member.2 = .ok text := by
  induction members with
  | nil => simp [reprMembers]
  | cons member members ih =>
      rw [List.forall_mem_cons, ← ih, reprMembers]
      cases repr interpreter depth member.2 with
      | ok text =>
          refine bind_pure_ok_iff.trans ⟨fun isOk => ⟨⟨text, rfl⟩, isOk⟩, fun isOk => isOk.2⟩
      | error error =>
          constructor
          · rintro ⟨texts, ⟨⟩⟩
          · rintro ⟨⟨text, ⟨⟩⟩, _⟩

theorem repr_zero_iff {interpreter : PyInterpreter} {value : PyValue} :
    (∃ text, repr interpreter 0 value = .ok text) ↔ nesting value ≤ 0 ∧ value.AllShort := by
  have deep := nesting_pos value
  constructor
  · rintro ⟨text, isOk⟩
    rw [repr] at isOk
    cases isOk
  · rintro ⟨isShallow, _⟩
    omega

theorem repr_scalar_iff {interpreter : PyInterpreter} {value : PyValue} {depth : ℕ}
    (isShort : value.AllShort) (isScalar : nesting value = 1)
    (isWritten : ∃ text, repr interpreter (depth + 1) value = .ok text) :
    (∃ text, repr interpreter (depth + 1) value = .ok text) ↔
      nesting value ≤ depth + 1 ∧ value.AllShort :=
  ⟨fun _ => ⟨by omega, isShort⟩, fun _ => isWritten⟩

/-- A value is written unless it is nested too deeply or holds an integer that is too long. -/
theorem repr_ok_iff {interpreter : PyInterpreter} {value : PyValue} {depth : ℕ} :
    (∃ text, repr interpreter depth value = .ok text) ↔ nesting value ≤ depth ∧ value.AllShort := by
  induction value using JsonTree.induct generalizing depth with
  | null =>
      cases depth with
      | zero => exact repr_zero_iff
      | succ depth => exact repr_scalar_iff .null rfl ⟨_, rfl⟩
  | bool value =>
      cases depth with
      | zero => exact repr_zero_iff
      | succ depth => exact repr_scalar_iff (.bool value) rfl ⟨_, rfl⟩
  | str text =>
      cases depth with
      | zero => exact repr_zero_iff
      | succ depth => exact repr_scalar_iff (.str trivial) rfl ⟨_, rfl⟩
  | num number =>
      cases depth with
      | zero => exact repr_zero_iff
      | succ depth =>
          cases number with
          | float value => exact repr_scalar_iff (.num trivial) rfl ⟨_, rfl⟩
          | int value =>
              by_cases isShort : value.natAbs < 10 ^ maxStrDigits
              · refine repr_scalar_iff (.num isShort) rfl ⟨toString value, ?_⟩
                rw [repr, if_pos isShort]
              · rw [repr, if_neg isShort]
                constructor
                · rintro ⟨text, ⟨⟩⟩
                · rintro ⟨_, allShort⟩
                  cases allShort with
                  | num isGood => exact absurd isGood isShort
  | arr items ih =>
      cases depth with
      | zero => exact repr_zero_iff
      | succ depth =>
          rw [repr, bind_pure_ok_iff, reprItems_ok_iff, nesting, Nat.add_le_add_iff_right,
            nestingItems_le_iff]
          constructor
          · intro written
            have good (item : PyValue) (isItem : item ∈ items) := (ih item isItem).mp (written item isItem)
            exact ⟨fun item isItem => (good item isItem).1, .arr fun item isItem => (good item isItem).2⟩
          · rintro ⟨shallow, allShort⟩ item isItem
            cases allShort with
            | arr good => exact (ih item isItem).mpr ⟨shallow item isItem, good item isItem⟩
  | obj members ih =>
      cases depth with
      | zero => exact repr_zero_iff
      | succ depth =>
          rw [repr, bind_pure_ok_iff, reprMembers_ok_iff, nesting, Nat.add_le_add_iff_right,
            nestingMembers_le_iff]
          constructor
          · intro written
            have good (member : String × PyValue) (isMember : member ∈ members) :=
              (ih member isMember).mp (written member isMember)
            exact ⟨fun member isMember => (good member isMember).1,
              .obj (fun _ _ => trivial) fun member isMember => (good member isMember).2⟩
          · rintro ⟨shallow, allShort⟩ member isMember
            cases allShort with
            | obj _ good => exact (ih member isMember).mpr ⟨shallow member isMember, good member isMember⟩

example (interpreter : PyInterpreter) : repr interpreter 2 (.arr [.null, .bool true]) =
    .ok "[None, True]" := rfl

/-- A value that a format string can write: a text, or one that is neither nested too deeply nor
holds an integer that is too long. -/
def Writable (interpreter : PyInterpreter) : PyValue → Prop
  | .str _ => True
  | value => nesting value ≤ interpreter.depth ∧ value.AllShort

theorem formatted_ok_iff {interpreter : PyInterpreter} {value : PyValue} :
    (∃ text, value.formatted interpreter = .ok text) ↔ value.Writable interpreter := by
  cases value with
  | str text => exact ⟨fun _ => trivial, fun _ => ⟨text, rfl⟩⟩
  | null => exact repr_ok_iff
  | bool value => exact repr_ok_iff
  | num number => exact repr_ok_iff
  | arr items => exact repr_ok_iff
  | obj members => exact repr_ok_iff

end PyValue

end Aa.Library
