import Aa.Library.Each
import Aa.Library.PyValue

/-!
# Code that works on JSON values of any shape

Python code may take a value read from JSON for a dict, a list or a text without looking. What it
then does depends on the value: each operation here succeeds on the shapes that have it and raises
on the others.
-/

namespace Aa.Library

/-- The exceptions that are raised where a value has the wrong shape; `validationError` is that of
a field of a data class which takes no such value. -/
inductive PyException
  | attributeError
  | keyError
  | indexError
  | validationError
  | conversion (error : PyError)
  deriving DecidableEq

def PyException.typeError : PyException := .conversion .typeError

/-- The float 0. -/
def PyFloat.zero : PyFloat :=
  .finite
    { negative := false
      magnitude := 0
      nonneg := le_refl 0
      isDouble := by decide +kernel }

namespace PyValue

/-- `value or default`. -/
def orElse (value default : PyValue) : PyValue :=
  if value.truthy then value else default

/-- The member of a dict with a name, or the default. -/
def member (members : List (String × PyValue)) (name : String) (default : PyValue) : PyValue :=
  (members.lookup name).getD default

/-- `value.get(name, default)`. -/
def getOr : PyValue → String → PyValue → Except PyException PyValue
  | .obj members, name, default => .ok (member members name default)
  | _, _, _ => .error .attributeError

/-- `value[0]`. -/
def first : PyValue → Except PyException PyValue
  | .arr [] => .error .indexError
  | .arr (item :: _) => .ok item
  | .str text =>
      match text.toList with
      | [] => .error .indexError
      | c :: _ => .ok (.str (String.singleton c))
  | .obj _ => .error .keyError
  | _ => .error .typeError

/-- `list(value)`: the items of a list, the characters of a text, the names of a dict. -/
def items : PyValue → Except PyException (List PyValue)
  | .arr items => .ok items
  | .str text => .ok (text.toList.map fun c => .str (String.singleton c))
  | .obj members => .ok (members.map fun member => .str member.1)
  | _ => .error .typeError

/-- The value of a field that is a text. -/
def asText : PyValue → Except PyException String
  | .str text => .ok text
  | _ => .error .validationError

/-- The value of a field that is a list of texts. -/
def asTexts (values : List PyValue) : Except PyException (List String) :=
  values.mapM asText

/-! ## Shapes -/

def IsDict : PyValue → Prop
  | .obj _ => True
  | _ => False

def IsText : PyValue → Prop
  | .str _ => True
  | _ => False

/-- The text that a value is. -/
def text? : PyValue → Option String
  | .str text => some text
  | _ => none

/-- The texts that a list made of the value holds. -/
def texts : PyValue → List String
  | .arr items => items.filterMap text?
  | .str text => text.toList.map String.singleton
  | .obj members => members.map Prod.fst
  | _ => []

/-- A list made of the value holds texts only. -/
def IsTexts : PyValue → Prop
  | .arr items => ∀ item ∈ items, IsText item
  | .str _ => True
  | .obj _ => True
  | _ => False

/-- A value that `int` reads. -/
def IsInteger (interpreter : PyInterpreter) : PyValue → Prop
  | .bool _ => True
  | .num (.int _) => True
  | .num (.float (.finite _)) => True
  | .str text => ∃ value, interpreter.int text = some value
  | _ => False

/-- A value that `float` reads. -/
def IsNumber (interpreter : PyInterpreter) : PyValue → Prop
  | .bool _ => True
  | .num (.int value) => value.natAbs < (2 ^ 54 - 1) * 2 ^ 970
  | .num (.float _) => True
  | .str text => ∃ value, interpreter.float text = some value
  | _ => False

theorem int_ok_iff {interpreter : PyInterpreter} {value : PyValue} :
    (∃ number, value.int interpreter = .ok number) ↔ value.IsInteger interpreter := by
  cases value with
  | null => simp [int, IsInteger]
  | bool value => simp [int, IsInteger]
  | num number =>
      cases number with
      | int value => simp [int, IsInteger]
      | float value => cases value <;> simp [int, IsInteger]
  | str text => cases isRead : interpreter.int text <;> simp [int, IsInteger, isRead]
  | arr items => simp [int, IsInteger]
  | obj members => simp [int, IsInteger]

/-- An integer is converted to a double unless it is too large. -/
theorem ofInt_ok_iff {number : ℤ} :
    (∃ converted, PyFloat.ofInt number = .ok converted) ↔
      number.natAbs < (2 ^ 54 - 1) * 2 ^ 970 := by
  rw [← not_le]
  cases isConverted : PyFloat.ofInt number with
  | ok converted =>
      refine ⟨fun _ isLarge => ?_, fun _ => ⟨converted, rfl⟩⟩
      rw [PyFloat.ofInt_eq_error_iff.mpr ⟨isLarge, rfl⟩] at isConverted
      cases isConverted
  | error error =>
      have isLarge := (PyFloat.ofInt_eq_error_iff.mp isConverted).1
      exact ⟨(fun ⟨_, no⟩ => nomatch no), fun notLarge => absurd isLarge notLarge⟩

theorem float_ok_iff {interpreter : PyInterpreter} {value : PyValue} :
    (∃ number, value.float interpreter = .ok number) ↔ value.IsNumber interpreter := by
  cases value with
  | null => simp [float, IsNumber]
  | bool value =>
      refine ⟨fun _ => trivial, fun _ => ofInt_ok_iff.mpr ?_⟩
      cases value with
      | true => decide +kernel
      | false => decide +kernel
  | num number =>
      cases number with
      | int value => exact ofInt_ok_iff
      | float value => simp [float, IsNumber]
  | str text => cases isRead : interpreter.float text <;> simp [float, IsNumber, isRead]
  | arr items => simp [float, IsNumber]
  | obj members => simp [float, IsNumber]

@[simp]
theorem getOr_obj {members : List (String × PyValue)} {name : String} {default : PyValue} :
    PyValue.getOr (.obj members) name default = .ok (member members name default) := rfl

theorem exists_getOr_iff {value : PyValue} {name : String} {default : PyValue}
    {holds : PyValue → Prop} :
    (∃ found, value.getOr name default = .ok found ∧ holds found) ↔
      ∃ members, value = .obj members ∧ holds (member members name default) := by
  cases value <;> simp [getOr]

/-- The first item is a dict only of a list. -/
theorem first_eq_obj_iff {value : PyValue} {members : List (String × PyValue)} :
    value.first = .ok (.obj members) ↔ ∃ rest, value = .arr (.obj members :: rest) := by
  cases value with
  | arr items => cases items <;> simp [first]
  | str text =>
      simp only [first]
      split <;> simp
  | null => simp [first]
  | bool value => simp [first]
  | num number => simp [first]
  | obj members => simp [first]

theorem asText_eq_ok_iff {value : PyValue} {text : String} :
    value.asText = .ok text ↔ value = .str text := by
  cases value <;> simp [asText]

theorem asText_ok_iff {value : PyValue} : (∃ text, value.asText = .ok text) ↔ value.IsText := by
  cases value <;> simp [asText, IsText]

/-- Texts are read as they are. -/
theorem asTexts_map_str (listed : List String) :
    asTexts (listed.map fun text => .str text) = .ok listed := by
  rw [asTexts, mapM_eq_ok_iff]
  induction listed with
  | nil => exact .nil
  | cons text rest ih => exact .cons rfl ih

/-- A list of values is a list of texts exactly if each value is a text. -/
theorem asTexts_ok_iff {values : List PyValue} :
    (∃ listed, asTexts values = .ok listed) ↔ ∀ value ∈ values, value.IsText := by
  constructor
  · rintro ⟨listed, isListed⟩ value isValue
    have each := mapM_eq_ok_iff.mp isListed
    induction each with
    | nil => cases isValue
    | cons isText rest ih =>
        rcases List.mem_cons.mp isValue with rfl | isLater
        · exact asText_ok_iff.mp ⟨_, isText⟩
        · exact ih (mapM_eq_ok_iff.mpr rest) isLater
  · intro areTexts
    rcases exists_mapM fun value isValue => asText_ok_iff.mpr (areTexts value isValue) with
      ⟨listed, isListed, _⟩
    exact ⟨listed, isListed⟩

/-- A list made of a value and read as texts. -/
theorem items_asTexts_ok_iff {value : PyValue} :
    (∃ listed, (value.items >>= asTexts) = .ok listed) ↔ value.IsTexts := by
  cases value with
  | arr items =>
      exact (asTexts_ok_iff : (∃ listed, asTexts items = .ok listed) ↔ _)
  | str text =>
      refine ⟨fun _ => trivial, fun _ => ⟨text.toList.map String.singleton, ?_⟩⟩
      have read := asTexts_map_str (text.toList.map String.singleton)
      rwa [List.map_map] at read
  | obj members =>
      refine ⟨fun _ => trivial, fun _ => ⟨members.map Prod.fst, ?_⟩⟩
      have read := asTexts_map_str (members.map Prod.fst)
      rwa [List.map_map] at read
  | null => exact ⟨(fun ⟨_, no⟩ => nomatch no), False.elim⟩
  | bool value => exact ⟨(fun ⟨_, no⟩ => nomatch no), False.elim⟩
  | num number => exact ⟨(fun ⟨_, no⟩ => nomatch no), False.elim⟩

/-- What is read then are the texts of the value. -/
theorem eq_texts_of_items {value : PyValue} {listed : List String}
    (isListed : (value.items >>= asTexts) = .ok listed) : listed = value.texts := by
  cases value with
  | arr items =>
      have each := mapM_eq_ok_iff.mp (isListed : asTexts items = .ok listed)
      simp only [texts]
      induction each with
      | nil => rfl
      | cons isText rest ih =>
          have later := ih (mapM_eq_ok_iff.mpr rest)
          rw [asText_eq_ok_iff.mp isText, later]
          rfl
  | str text =>
      have read := asTexts_map_str (text.toList.map String.singleton)
      rw [List.map_map] at read
      exact Except.ok.inj (isListed.symm.trans read)
  | obj members =>
      have read := asTexts_map_str (members.map Prod.fst)
      rw [List.map_map] at read
      exact Except.ok.inj (isListed.symm.trans read)
  | null => cases isListed
  | bool value => cases isListed
  | num number => cases isListed

end PyValue

end Aa.Library
