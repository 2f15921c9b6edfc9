import Aa.Library.PyValue

/-!
# Numbers as Python writes them

`repr` of an `int` and of a `float`: the digits of an integer, and the shortest digits that are
read as the double, with a point or with an exponent of two digits at least. What is written is
read as the number.
-/

namespace Aa.Library

open Binary64 JsonNumber

/-! ## Writing -/

namespace PyFloat

/-- The digits of an exponent, two at least. -/
def exponentDigits (power : ℕ) : List Char :=
  if power < 10 then '0' :: Nat.toDigits 10 power else Nat.toDigits 10 power

/-- One digit before the point, and an exponent. -/
def scientificText (digits : List Char) (exponent : ℤ) : List Char :=
  let power := exponent + digits.length - 1
  let point := if digits.length = 1 then [] else ['.']
  digits.take 1 ++ point ++ digits.drop 1 ++
    'e' :: (if power < 0 then '-' else '+') :: exponentDigits power.natAbs

/-- The digits with a point among or after them. -/
def pointedText (digits : List Char) (exponent : ℤ) : List Char :=
  positional digits exponent ++ if 0 ≤ exponent then ['.', '0'] else []

def magnitudeRepr (magnitude : ℚ) : List Char :=
  let decimal := shortest magnitude
  let digits := Nat.toDigits 10 decimal.digits
  let power := decimal.exponent + digits.length - 1
  if magnitude = 0 then ['0', '.', '0']
  else if power < -4 ∨ 16 ≤ power then scientificText digits decimal.exponent
  else pointedText digits decimal.exponent

/-- `repr(value)`. -/
def repr : PyFloat → List Char
  | .finite double =>
      if double.negative then '-' :: magnitudeRepr double.magnitude
      else magnitudeRepr double.magnitude
  | .infinite negative => if negative then ['-', 'i', 'n', 'f'] else ['i', 'n', 'f']
  | .nan => ['n', 'a', 'n']

end PyFloat

namespace PyNumber

/-- `repr(value)` of an `int`. -/
def intRepr (value : ℤ) : List Char :=
  if value < 0 then '-' :: Nat.toDigits 10 value.natAbs else Nat.toDigits 10 value.natAbs

def repr : PyNumber → List Char
  | .int value => intRepr value
  | .float value => value.repr

/-! ## Reading -/

/-- Digits of an integer: a zero, or digits that do not start with one. -/
def readNatural (digits : List Char) : Option ℕ :=
  if digits ≠ [] ∧ digits.all Char.isDigit ∧ (digits.head? ≠ some '0' ∨ digits.length = 1) then
    some (Nat.ofDigitChars 10 digits 0)
  else none

def readInteger : List Char → Option ℤ
  | '-' :: digits => (readNatural digits).map fun value : ℕ => -(value : ℤ)
  | digits => (readNatural digits).map fun value : ℕ => (value : ℤ)

def readFloat (chars : List Char) : Option PyFloat :=
  if chars = ['i', 'n', 'f'] then some (.infinite false)
  else if chars = ['-', 'i', 'n', 'f'] then some (.infinite true)
  else if chars = ['n', 'a', 'n'] then some .nan
  else ((readNumber chars).bind parseFloat).map .finite

/-- An integer, or else a float with a point or an exponent, or one that is not finite. -/
def read (chars : List Char) : Option PyNumber :=
  match readInteger chars with
  | some value => some (.int value)
  | none => (readFloat chars).map .float

end PyNumber

/-! ## What is written is read -/

namespace PyFloat

variable {number : ℕ} (positive : 0 < number) (negative : Bool) (exponent : ℤ)

theorem readExponent_padded (power : ℤ) :
    readExponent ('e' :: (if power < 0 then '-' else '+') :: exponentDigits power.natAbs) =
      some power := by
  have reads : readDigits (exponentDigits power.natAbs) = some power.natAbs := by
    have allDigits : (exponentDigits power.natAbs).all Char.isDigit = true := by
      refine List.all_eq_true.mpr fun c isThere => ?_
      rw [exponentDigits] at isThere
      split_ifs at isThere
      · rcases List.mem_cons.mp isThere with rfl | isDigit
        · rfl
        · exact isDigit_toDigits _ c isDigit
      · exact isDigit_toDigits _ c isThere
    have notEmpty : exponentDigits power.natAbs ≠ [] := by
      rw [exponentDigits]
      split_ifs
      · simp
      · exact Nat.toDigits_ne_nil
    rw [readDigits, if_pos ⟨notEmpty, allDigits⟩, exponentDigits]
    split_ifs
    · exact congrArg some (ofDigitChars_leading 1)
    · rw [Nat.ofDigitChars_ten_toDigits]
  by_cases isNegative : power < 0
  · simp [readExponent, isNegative, reads, abs_of_neg isNegative]
  · simp [readExponent, isNegative, reads, abs_of_nonneg (not_lt.mp isNegative)]

include positive in
theorem read_pointedText : ∃ literal,
    readUnsigned negative (pointedText (Nat.toDigits 10 number) exponent) = some literal ∧
      literal.negative = negative ∧ literal.magnitude = (Decimal.mk number exponent).value := by
  by_cases whole : 0 ≤ exponent
  · have reads := readUnsigned_toDigits positive negative (Nat.toDigits 10 number) ['.', '0']
      ⟨[], List.append_nil _⟩ Nat.toDigits_ne_nil (by simp) exponent.toNat
    have pointed := readFraction_point negative
      (Nat.toDigits 10 number ++ List.replicate exponent.toNat '0') ['0'] [] (by simp) (by simp)
      (by simp) rfl
    have digits : Nat.toDigits 10 number ++ List.replicate exponent.toNat '0' ++ ['0'] =
        Nat.toDigits 10 number ++ List.replicate (exponent.toNat + 1) '0' := by
      rw [List.append_assoc, List.replicate_succ']
    rw [digits, ofDigitChars_zeros, List.append_nil] at pointed
    refine ⟨⟨negative, number * 10 ^ (exponent.toNat + 1), 0 - 1⟩, ?_, rfl, ?_⟩
    · rw [pointedText, positional, if_pos whole, if_pos whole, reads]
      exact pointed
    · have power : (10 : ℚ) ^ exponent.toNat = 10 ^ exponent := by
        rw [← zpow_natCast, Int.toNat_of_nonneg whole]
      simp only [Literal.magnitude, Decimal.value, Nat.cast_mul, Nat.cast_pow, Nat.cast_ofNat,
        pow_succ, power, zero_sub, zpow_neg, zpow_one]
      field_simp
  · rcases read_positional positive negative exponent with ⟨literal, reads, signs, isMagnitude⟩
    refine ⟨literal, ?_, signs, isMagnitude⟩
    rw [pointedText, if_neg whole, List.append_nil, reads]

include positive in
theorem read_scientificText : ∃ literal,
    readUnsigned negative (scientificText (Nat.toDigits 10 number) exponent) = some literal ∧
      literal.negative = negative ∧ literal.magnitude = (Decimal.mk number exponent).value := by
  refine ⟨⟨negative, number, exponent⟩, ?_, rfl, rfl⟩
  have lengthPos : 0 < (Nat.toDigits 10 number).length :=
    List.length_pos_iff.mpr Nat.toDigits_ne_nil
  have isPower := readExponent_padded (exponent + (Nat.toDigits 10 number).length - 1)
  simp only [scientificText]
  generalize (if exponent + (Nat.toDigits 10 number).length - 1 < 0 then '-' else '+') ::
    exponentDigits (exponent + (Nat.toDigits 10 number).length - 1).natAbs = mark at isPower ⊢
  have ends : ∀ c ∈ ('e' :: mark).head?, c.isDigit = false := by simp
  by_cases single : (Nat.toDigits 10 number).length = 1
  · have reads := readUnsigned_toDigits positive negative (Nat.toDigits 10 number) ('e' :: mark)
      ⟨[], List.append_nil _⟩ Nat.toDigits_ne_nil ends 0
    have isExponent : exponent + (Nat.toDigits 10 number).length - 1 = exponent := by omega
    rw [List.replicate_zero, List.append_nil, readFraction_bare _ _ (by simp) isPower,
      Nat.ofDigitChars_ten_toDigits, isExponent] at reads
    have isWhole : (Nat.toDigits 10 number).take 1 = Nat.toDigits 10 number :=
      List.take_of_length_le single.le
    have noMore : (Nat.toDigits 10 number).drop 1 = [] := List.drop_eq_nil_of_le single.le
    rw [if_pos single, isWhole, noMore, List.append_nil, List.append_nil]
    exact reads
  · have reads := readUnsigned_pointed positive negative ('e' :: mark)
      (List.take_append_drop 1 (Nat.toDigits 10 number)) (by simp)
      (fun isNil => single (le_antisymm (List.drop_eq_nil_iff.mp isNil) lengthPos)) ends isPower
    have isExponent : exponent + (Nat.toDigits 10 number).length - 1 -
        ((Nat.toDigits 10 number).drop 1).length = exponent := by
      rw [List.length_drop]
      omega
    rw [isExponent] at reads
    rw [if_neg single]
    simpa using reads

/-- The text of a magnitude is read as the magnitude. -/
theorem read_magnitudeRepr {magnitude : ℚ} (negative : Bool) (nonneg : 0 ≤ magnitude)
    (isDouble : nearest magnitude = some magnitude) : ∃ literal,
      readUnsigned negative (magnitudeRepr magnitude) = some literal ∧
        literal.negative = negative ∧ nearest literal.magnitude = some magnitude := by
  have isRead := nearest_shortest nonneg isDouble
  have zero : nearest 0 = some 0 := by decide +kernel
  simp only [magnitudeRepr]
  by_cases isZero : magnitude = 0
  · subst isZero
    rw [if_pos rfl]
    refine ⟨⟨negative, 0, -1⟩, by cases negative <;> decide +kernel, rfl, ?_⟩
    have isNothing : Literal.magnitude ⟨negative, 0, -1⟩ = 0 := by
      simp [Literal.magnitude, Decimal.value]
    rwa [isNothing]
  · rw [if_neg isZero]
    have positive : 0 < (shortest magnitude).digits := by
      by_contra none
      have noDigits : (shortest magnitude).digits = 0 := by omega
      rw [Decimal.value, noDigits, Nat.cast_zero, zero_mul, zero] at isRead
      exact isZero (Option.some.inj isRead).symm
    split_ifs
    · rcases read_scientificText positive negative (shortest magnitude).exponent with
        ⟨literal, reads, signs, isMagnitude⟩
      exact ⟨literal, reads, signs, by rw [isMagnitude]; exact isRead⟩
    · rcases read_pointedText positive negative (shortest magnitude).exponent with
        ⟨literal, reads, signs, isMagnitude⟩
      exact ⟨literal, reads, signs, by rw [isMagnitude]; exact isRead⟩

/-- The text of a magnitude is none of an integer. -/
theorem not_digits_magnitudeRepr (magnitude : ℚ) :
    (magnitudeRepr magnitude).all Char.isDigit = false := by
  have marked {chars : List Char} (c : Char) (isThere : c ∈ chars) (notDigit : c.isDigit = false) :
      chars.all Char.isDigit = false :=
    List.all_eq_false.mpr ⟨c, isThere, by simp [notDigit]⟩
  simp only [magnitudeRepr]
  split_ifs
  · rfl
  · exact marked 'e' (by simp [scientificText]) rfl
  · refine marked '.' ?_ rfl
    simp only [pointedText, positional]
    split_ifs <;> simp

theorem isNumberChar_magnitudeRepr (magnitude : ℚ) :
    ∀ c ∈ magnitudeRepr magnitude, isNumberChar c = true := by
  have isDigit (count : ℕ) (c : Char) (isThere : c ∈ exponentDigits count) :
      isNumberChar c = true := by
    rw [exponentDigits] at isThere
    split_ifs at isThere
    · rcases List.mem_cons.mp isThere with rfl | isDigit
      · rfl
      · exact isNumberChar_toDigits count c isDigit
    · exact isNumberChar_toDigits count c isThere
  intro c isThere
  simp only [magnitudeRepr] at isThere
  split_ifs at isThere
  · exact List.all_eq_true.mp (by decide) c isThere
  · simp only [scientificText, List.mem_append, List.mem_cons] at isThere
    rcases isThere with ((isFirst | isPoint) | isRest) | rfl | rfl | isExponent
    · exact isNumberChar_toDigits _ c (List.mem_of_mem_take isFirst)
    · split_ifs at isPoint
      · cases isPoint
      · cases List.mem_singleton.mp isPoint
        rfl
    · exact isNumberChar_toDigits _ c (List.mem_of_mem_drop isRest)
    · rfl
    · split_ifs <;> rfl
    · exact isDigit _ c isExponent
  · rcases List.mem_append.mp isThere with isPositional | isEnd
    · exact isNumberChar_positional _ _ c isPositional
    · split_ifs at isEnd
      · exact List.all_eq_true.mp (by decide) c isEnd
      · cases isEnd

theorem magnitudeRepr_opens {magnitude : ℚ} (nonneg : 0 ≤ magnitude)
    (isDouble : nearest magnitude = some magnitude) :
    ∃ c rest, magnitudeRepr magnitude = c :: rest ∧ c.isDigit = true := by
  rcases read_magnitudeRepr false nonneg isDouble with ⟨literal, reads, -⟩
  exact opens_of_readUnsigned reads

end PyFloat

namespace PyNumber

/-- The first character of a number. -/
def Opens (c : Char) : Prop := c = '-' ∨ c.isDigit = true ∨ c = 'i' ∨ c = 'n'

theorem readNatural_toDigits (number : ℕ) : readNatural (Nat.toDigits 10 number) = some number := by
  have allDigits : (Nat.toDigits 10 number).all Char.isDigit = true :=
    List.all_eq_true.mpr (isDigit_toDigits number)
  have isPlain : (Nat.toDigits 10 number).head? ≠ some '0' ∨
      (Nat.toDigits 10 number).length = 1 := by
    rcases Nat.eq_zero_or_pos number with rfl | positive
    · exact .inr rfl
    · rcases head_toDigits positive with ⟨c, rest, isHead, notZero⟩
      rw [isHead]
      exact .inl (by simpa using notZero)
  rw [readNatural, if_pos ⟨Nat.toDigits_ne_nil, allDigits, isPlain⟩, Nat.ofDigitChars_ten_toDigits]

theorem readInteger_of_digit {c : Char} {rest : List Char} (isDigit : c.isDigit = true) :
    readInteger (c :: rest) = (readNatural (c :: rest)).map fun value : ℕ => (value : ℤ) := by
  unfold readInteger
  split
  · rename_i isMinus
    cases isMinus
    cases isDigit
  · rfl

theorem toDigits_opens (number : ℕ) :
    ∃ c rest, Nat.toDigits 10 number = c :: rest ∧ c.isDigit = true := by
  rcases isDigits : Nat.toDigits 10 number with _ | ⟨c, rest⟩
  · exact absurd isDigits Nat.toDigits_ne_nil
  · exact ⟨c, rest, rfl, isDigit_toDigits number c (by simp [isDigits])⟩

theorem readInteger_intRepr (value : ℤ) : readInteger (intRepr value) = some value := by
  rw [intRepr]
  split_ifs with isNegative
  · rw [readInteger, readNatural_toDigits, Option.map_some]
    exact congrArg some (by omega)
  · rcases toDigits_opens value.natAbs with ⟨c, rest, isDigits, isDigit⟩
    rw [isDigits, readInteger_of_digit isDigit, ← isDigits, readNatural_toDigits, Option.map_some]
    exact congrArg some (by omega)

theorem readNatural_of_not_digits {chars : List Char} (notDigits : chars.all Char.isDigit = false) :
    readNatural chars = none := by
  rw [readNatural, if_neg]
  rintro ⟨-, areDigits, -⟩
  rw [notDigits] at areDigits
  cases areDigits

theorem readNumber_of_digit {c : Char} {rest : List Char} (isDigit : c.isDigit = true) :
    readNumber (c :: rest) = readUnsigned false (c :: rest) := by
  unfold readNumber
  split
  · rename_i isMinus
    cases isMinus
    cases isDigit
  · rfl

/-- A finite float is read as one, and as no integer. -/
theorem read_finite (double : Double) :
    read (PyFloat.finite double).repr = some (.float (.finite double)) := by
  rcases PyFloat.read_magnitudeRepr double.negative double.nonneg double.isDouble with
    ⟨literal, reads, signs, isMagnitude⟩
  have parses : parseFloat literal = some double := parseFloat_eq_some.mpr ⟨signs, isMagnitude⟩
  have noInteger := readNatural_of_not_digits (PyFloat.not_digits_magnitudeRepr double.magnitude)
  rcases PyFloat.magnitudeRepr_opens double.nonneg double.isDouble with ⟨c, rest, opens, isDigit⟩
  have notWord : c ≠ 'i' ∧ c ≠ 'n' ∧ c ≠ '-' :=
    ⟨fun isWord => (by simp [isWord] at isDigit), fun isWord => (by simp [isWord] at isDigit),
      fun isWord => (by simp [isWord] at isDigit)⟩
  rw [PyFloat.repr]
  split_ifs with isNegative
  · rw [isNegative] at reads
    have notInteger : readInteger ('-' :: PyFloat.magnitudeRepr double.magnitude) = none := by
      rw [readInteger, noInteger, Option.map_none]
    rw [read, notInteger]
    rw [readFloat, if_neg (by simp), if_neg (by simp [opens, notWord]), if_neg (by simp), readNumber,
      reads, Option.bind_some, parses]
    rfl
  · have isPositive : double.negative = false := Bool.eq_false_of_not_eq_true isNegative
    rw [isPositive] at reads
    rw [opens] at reads noInteger ⊢
    have notInteger : readInteger (c :: rest) = none := by
      rw [readInteger_of_digit isDigit, noInteger, Option.map_none]
    rw [read, notInteger]
    rw [readFloat, if_neg (by simp [notWord]), if_neg (by simp [notWord]),
      if_neg (by simp [notWord]), readNumber_of_digit isDigit, reads, Option.bind_some, parses]
    rfl

/-- What Python writes for a number is read as the number. -/
theorem read_repr (number : PyNumber) : read number.repr = some number := by
  cases number with
  | int value => rw [repr, read, readInteger_intRepr]
  | float value =>
      cases value with
      | finite double => exact read_finite double
      | infinite negative => cases negative <;> decide +kernel
      | nan => decide +kernel

theorem repr_opens (number : PyNumber) : ∃ c rest, number.repr = c :: rest ∧ Opens c := by
  cases number with
  | int value =>
      rcases toDigits_opens value.natAbs with ⟨c, rest, isDigits, isDigit⟩
      rw [repr, intRepr]
      split_ifs
      · exact ⟨_, _, rfl, .inl rfl⟩
      · exact ⟨c, rest, isDigits, .inr (.inl isDigit)⟩
  | float value =>
      cases value with
      | finite double =>
          rcases PyFloat.magnitudeRepr_opens double.nonneg double.isDouble with
            ⟨c, rest, opens, isDigit⟩
          rw [repr, PyFloat.repr]
          split_ifs
          · exact ⟨_, _, rfl, .inl rfl⟩
          · exact ⟨c, rest, opens, .inr (.inl isDigit)⟩
      | infinite negative =>
          cases negative
          · exact ⟨_, _, rfl, .inr (.inr (.inl rfl))⟩
          · exact ⟨_, _, rfl, .inl rfl⟩
      | nan => exact ⟨_, _, rfl, .inr (.inr (.inr rfl))⟩

/-- The characters of a number are those of numerals and words. -/
theorem isNumberChar_repr (number : PyNumber) :
    ∀ c ∈ number.repr, isNumberChar c = true ∨ c.isAlpha = true := by
  cases number with
  | int value =>
      intro c isThere
      rw [repr, intRepr] at isThere
      split_ifs at isThere
      · rcases List.mem_cons.mp isThere with rfl | isDigit
        · exact .inl rfl
        · exact .inl (isNumberChar_toDigits _ c isDigit)
      · exact .inl (isNumberChar_toDigits _ c isThere)
  | float value =>
      cases value with
      | finite double =>
          intro c isThere
          rw [repr, PyFloat.repr] at isThere
          split_ifs at isThere
          · rcases List.mem_cons.mp isThere with rfl | isMagnitude
            · exact .inl rfl
            · exact .inl (PyFloat.isNumberChar_magnitudeRepr _ c isMagnitude)
          · exact .inl (PyFloat.isNumberChar_magnitudeRepr _ c isThere)
      | infinite negative =>
          have isWord : (repr (.float (.infinite negative))).all
              (fun c => isNumberChar c || c.isAlpha) = true := by
            cases negative <;> decide
          intro c isThere
          simpa using List.all_eq_true.mp isWord c isThere
      | nan =>
          have isWord : (repr (.float .nan)).all (fun c => isNumberChar c || c.isAlpha) = true := by
            decide
          intro c isThere
          simpa using List.all_eq_true.mp isWord c isThere

end PyNumber

example : PyNumber.repr (.int (-12)) = "-12".toList := by decide +kernel

end Aa.Library
