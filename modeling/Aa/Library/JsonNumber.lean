import Aa.Library.Binary64

/-!
# The numbers of JSON texts

A number literal stands for digits and a power of ten. A double is written as such a literal,
and what is written is read as the double.
-/

namespace Aa.Library.JsonNumber

open Binary64

/-- A number literal: a sign, and digits before a power of ten. -/
structure Literal where
  negative : Bool
  digits : ℕ
  exponent : ℤ
deriving DecidableEq

namespace Literal

def magnitude (literal : Literal) : ℚ := (Decimal.mk literal.digits literal.exponent).value

/-- The number a literal stands for. -/
def value (literal : Literal) : ℚ :=
  if literal.negative then -literal.magnitude else literal.magnitude

end Literal

/-! ## Reading -/

/-- Digits, one at least. -/
def readDigits (chars : List Char) : Option ℕ :=
  if chars ≠ [] ∧ chars.all Char.isDigit then some (Nat.ofDigitChars 10 chars 0) else none

def readExponent : List Char → Option ℤ
  | [] => some 0
  | mark :: rest =>
      if mark = 'e' ∨ mark = 'E' then
        match rest with
        | '+' :: digits => (readDigits digits).map fun power => (power : ℤ)
        | '-' :: digits => (readDigits digits).map fun power => -(power : ℤ)
        | digits => (readDigits digits).map fun power => (power : ℤ)
      else none

/-- What follows the whole part: a fraction and an exponent. -/
def readFraction (negative : Bool) (whole : List Char) : List Char → Option Literal
  | '.' :: rest =>
      let (fraction, rest) := rest.span Char.isDigit
      if fraction = [] then none
      else
        (readExponent rest).map fun power =>
          ⟨negative, Nat.ofDigitChars 10 (whole ++ fraction) 0, power - fraction.length⟩
  | rest =>
      (readExponent rest).map fun power => ⟨negative, Nat.ofDigitChars 10 whole 0, power⟩

/-- A number without its sign. Only a single zero may stand in front. -/
def readUnsigned (negative : Bool) (chars : List Char) : Option Literal :=
  let (whole, rest) := chars.span Char.isDigit
  if whole = [] ∨ (whole.head? = some '0' ∧ whole.length ≠ 1) then none
  else readFraction negative whole rest

/-- Reads a number literal. -/
def readNumber : List Char → Option Literal
  | '-' :: rest => readUnsigned true rest
  | rest => readUnsigned false rest

/-! ## Doubles -/

/-- A finite double: a sign, and a magnitude that is read as itself. -/
structure Double where
  negative : Bool
  magnitude : ℚ
  nonneg : 0 ≤ magnitude
  isDouble : nearest magnitude = some magnitude
deriving DecidableEq

theorem Double.eq_of {first second : Double} (signs : first.negative = second.negative)
    (magnitudes : first.magnitude = second.magnitude) : first = second := by
  cases first
  cases second
  cases signs
  cases magnitudes
  rfl

/-- `strconv.ParseFloat`: the nearest double, or none if it is out of range. -/
def parseFloat (literal : Literal) : Option Double :=
  match isNearest : nearest literal.magnitude with
  | none => none
  | some magnitude =>
      some
        { negative := literal.negative
          magnitude := magnitude
          nonneg := nearest_nonneg (Decimal.value_nonneg _) isNearest
          isDouble := nearest_of_nearest (Decimal.value_nonneg _) isNearest }

theorem parseFloat_eq_some {literal : Literal} {double : Double} :
    parseFloat literal = some double ↔
      literal.negative = double.negative ∧ nearest literal.magnitude = some double.magnitude := by
  unfold parseFloat
  split
  · rename_i isNearest
    simp [isNearest]
  · rename_i magnitude isNearest
    constructor
    · intro parses
      cases parses
      exact ⟨rfl, isNearest⟩
    · rintro ⟨signs, magnitudes⟩
      exact congrArg some (Double.eq_of signs (Option.some.inj (isNearest.symm.trans magnitudes)))

/-! ## Writing -/

/-- `%f`: the digits, with the point or zeros where the power of ten puts them. -/
def positional (digits : List Char) (exponent : ℤ) : List Char :=
  if 0 ≤ exponent then digits ++ List.replicate exponent.toNat '0'
  else
    let fraction := (-exponent).toNat
    if fraction < digits.length then
      digits.take (digits.length - fraction) ++ '.' :: digits.drop (digits.length - fraction)
    else '0' :: '.' :: (List.replicate (fraction - digits.length) '0' ++ digits)

/-- `%e`, with an exponent without leading zeros. -/
def scientific (digits : List Char) (exponent : ℤ) : List Char :=
  let power := exponent + digits.length - 1
  let point := if digits.length = 1 then [] else ['.']
  digits.take 1 ++ point ++ digits.drop 1 ++
    'e' :: (if power < 0 then '-' else '+') :: Nat.toDigits 10 power.natAbs

def magnitudeText (magnitude : ℚ) : List Char :=
  let decimal := shortest magnitude
  let digits := Nat.toDigits 10 decimal.digits
  if magnitude = 0 then ['0']
  else if magnitude < rounded (1 / 10 ^ 6) ∨ 10 ^ 21 ≤ magnitude then scientific digits decimal.exponent
  else positional digits decimal.exponent

/-- The text of a double in a JSON document. -/
def Double.text (double : Double) : List Char :=
  if double.negative then '-' :: magnitudeText double.magnitude
  else magnitudeText double.magnitude

/-! ## What is written is read -/

theorem isDigit_toDigits (number : ℕ) : ∀ c ∈ Nat.toDigits 10 number, c.isDigit = true :=
  fun _ isThere => Nat.isDigit_of_mem_toDigits (by decide) (by decide) isThere

/-- The first digit of a positive number is not zero. -/
theorem head_toDigits {number : ℕ} (positive : 0 < number) :
    ∃ c rest, Nat.toDigits 10 number = c :: rest ∧ c ≠ '0' := by
  induction number using Nat.strong_induction_on with
  | _ number ih =>
    by_cases small : number < 10
    · have notZero : ∀ digit < 10, 0 < digit → digit.digitChar ≠ '0' := by decide
      exact ⟨number.digitChar, [], Nat.toDigits_of_lt_base small, notZero number small positive⟩
    · rcases ih (number / 10) (by omega) (by omega) with ⟨c, rest, isHead, notZero⟩
      refine ⟨c, rest ++ [(number % 10).digitChar], ?_, notZero⟩
      rw [Nat.toDigits_of_base_le (by decide) (by omega), isHead]
      rfl

/-- Digits end where something else begins. -/
theorem span_digits {digits rest : List Char} (areDigits : ∀ c ∈ digits, c.isDigit = true)
    (ends : ∀ c ∈ rest.head?, c.isDigit = false) :
    (digits ++ rest).span Char.isDigit = (digits, rest) := by
  rw [List.span_eq_takeWhile_dropWhile, List.takeWhile_append_of_pos areDigits,
    List.dropWhile_append_of_pos areDigits]
  cases rest with
  | nil => simp
  | cons c rest =>
      have isEnd : c.isDigit = false := ends c rfl
      simp [isEnd]

/-- A whole part that does not start with a zero is read before its fraction. -/
theorem readUnsigned_append (negative : Bool) (whole rest : List Char) (nonempty : whole ≠ [])
    (areDigits : ∀ c ∈ whole, c.isDigit = true) (noZero : whole.head? ≠ some '0' ∨ whole.length = 1)
    (ends : ∀ c ∈ rest.head?, c.isDigit = false) :
    readUnsigned negative (whole ++ rest) = readFraction negative whole rest := by
  rw [readUnsigned, span_digits areDigits ends]
  have allowed : ¬ (whole = [] ∨ (whole.head? = some '0' ∧ whole.length ≠ 1)) := by
    rintro (isEmpty | ⟨isZero, isLong⟩)
    · exact nonempty isEmpty
    · rcases noZero with notZero | isShort
      · exact notZero isZero
      · exact isLong isShort
  simp only [if_neg allowed]

theorem readFraction_point (negative : Bool) (whole fraction rest : List Char)
    (nonempty : fraction ≠ []) (areDigits : ∀ c ∈ fraction, c.isDigit = true)
    (ends : ∀ c ∈ rest.head?, c.isDigit = false) {power : ℤ}
    (isPower : readExponent rest = some power) :
    readFraction negative whole ('.' :: (fraction ++ rest)) =
      some ⟨negative, Nat.ofDigitChars 10 (whole ++ fraction) 0, power - fraction.length⟩ := by
  rw [readFraction, span_digits areDigits ends]
  simp only [if_neg nonempty, isPower, Option.map_some]

theorem readFraction_bare (negative : Bool) (whole : List Char) {rest : List Char} {power : ℤ}
    (noPoint : ∀ more, rest ≠ '.' :: more) (isPower : readExponent rest = some power) :
    readFraction negative whole rest =
      some ⟨negative, Nat.ofDigitChars 10 whole 0, power⟩ := by
  unfold readFraction
  split
  · exact absurd rfl (noPoint _)
  · rw [isPower, Option.map_some]

/-- An exponent with its sign is read as written. -/
theorem readExponent_signed (power : ℤ) :
    readExponent ('e' :: (if power < 0 then '-' else '+') :: Nat.toDigits 10 power.natAbs) =
      some power := by
  have allDigits : (Nat.toDigits 10 power.natAbs).all Char.isDigit = true :=
    List.all_eq_true.mpr (isDigit_toDigits power.natAbs)
  have reads : readDigits (Nat.toDigits 10 power.natAbs) = some power.natAbs := by
    rw [readDigits, if_pos ⟨Nat.toDigits_ne_nil, allDigits⟩, Nat.ofDigitChars_ten_toDigits]
  by_cases isNegative : power < 0
  · simp [readExponent, isNegative, reads, abs_of_neg isNegative]
  · simp [readExponent, isNegative, reads, abs_of_nonneg (not_lt.mp isNegative)]

section Written

variable {number : ℕ} (positive : 0 < number) (negative : Bool) (exponent : ℤ)

include positive in
/-- The digits of a positive number, with zeros after them, start a literal. -/
theorem readUnsigned_toDigits (digits rest : List Char)
    (starts : ∃ more, digits ++ more = Nat.toDigits 10 number) (nonempty : digits ≠ [])
    (ends : ∀ c ∈ rest.head?, c.isDigit = false) (zeros : ℕ) :
    readUnsigned negative (digits ++ List.replicate zeros '0' ++ rest) =
      readFraction negative (digits ++ List.replicate zeros '0') rest := by
  rcases starts with ⟨more, isStart⟩
  rcases head_toDigits positive with ⟨c, others, isHead, notZero⟩
  have areDigits : ∀ c ∈ digits ++ List.replicate zeros '0', c.isDigit = true := by
    intro c isThere
    rcases List.mem_append.mp isThere with isDigit | isZero
    · exact isDigit_toDigits number c (by simp [← isStart, isDigit])
    · rw [List.eq_of_mem_replicate isZero]
      rfl
  refine readUnsigned_append _ _ _ (by simp [nonempty]) areDigits (.inl ?_) ends
  cases digits with
  | nil => exact absurd rfl nonempty
  | cons first digits =>
      rw [isHead] at isStart
      cases (List.cons.inj isStart).1
      simpa using notZero

/-- Zeros after the digits are powers of ten. -/
theorem ofDigitChars_zeros (zeros : ℕ) :
    Nat.ofDigitChars 10 (Nat.toDigits 10 number ++ List.replicate zeros '0') 0 =
      number * 10 ^ zeros := by
  rw [Nat.ofDigitChars_append, Nat.ofDigitChars_replicate_zero, Nat.ofDigitChars_ten_toDigits,
    Nat.mul_comm]

/-- Zeros before the digits do not count. -/
theorem ofDigitChars_leading (zeros : ℕ) :
    Nat.ofDigitChars 10 (List.replicate zeros '0' ++ Nat.toDigits 10 number) 0 = number := by
  rw [Nat.ofDigitChars_append, Nat.ofDigitChars_replicate_zero, Nat.mul_zero,
    Nat.ofDigitChars_ten_toDigits]

include positive in
/-- Digits with a point among them are read with a fraction. -/
theorem readUnsigned_pointed {whole fraction : List Char} (rest : List Char)
    (digits : whole ++ fraction = Nat.toDigits 10 number) (nonempty : whole ≠ [])
    (fractionNonempty : fraction ≠ []) (ends : ∀ c ∈ rest.head?, c.isDigit = false) {power : ℤ}
    (isPower : readExponent rest = some power) :
    readUnsigned negative (whole ++ '.' :: (fraction ++ rest)) =
      some ⟨negative, number, power - fraction.length⟩ := by
  have reads := readUnsigned_toDigits positive negative whole ('.' :: (fraction ++ rest))
    ⟨fraction, digits⟩ nonempty (by simp) 0
  rw [List.replicate_zero, List.append_nil] at reads
  have areDigits : ∀ c ∈ fraction, c.isDigit = true := fun c isThere =>
    isDigit_toDigits number c (by simp [← digits, isThere])
  rw [reads, readFraction_point negative whole fraction rest fractionNonempty areDigits ends isPower,
    digits, Nat.ofDigitChars_ten_toDigits]

/-- Digits after a zero, a point and more zeros are all a fraction. -/
theorem readUnsigned_leading (zeros : ℕ) :
    readUnsigned negative ('0' :: '.' :: (List.replicate zeros '0' ++ Nat.toDigits 10 number)) =
      some ⟨negative, number, 0 - (zeros + (Nat.toDigits 10 number).length : ℕ)⟩ := by
  have areDigits : ∀ c ∈ List.replicate zeros '0' ++ Nat.toDigits 10 number, c.isDigit = true := by
    intro c isThere
    rcases List.mem_append.mp isThere with isZero | isDigit
    · rw [List.eq_of_mem_replicate isZero]
      rfl
    · exact isDigit_toDigits number c isDigit
  have reads := readUnsigned_append negative ['0']
    ('.' :: (List.replicate zeros '0' ++ Nat.toDigits 10 number ++ [])) (by simp) (by simp)
    (.inr rfl) (by simp)
  have digits : ['0'] ++ (List.replicate zeros '0' ++ Nat.toDigits 10 number) =
      List.replicate (zeros + 1) '0' ++ Nat.toDigits 10 number := by
    rw [List.replicate_succ]
    rfl
  rw [readFraction_point negative ['0'] (List.replicate zeros '0' ++ Nat.toDigits 10 number) []
    (by simp) areDigits (by simp) rfl, digits, ofDigitChars_leading] at reads
  simpa using reads

include positive in
theorem read_positional : ∃ literal,
    readUnsigned negative (positional (Nat.toDigits 10 number) exponent) = some literal ∧
      literal.negative = negative ∧ literal.magnitude = (Decimal.mk number exponent).value := by
  by_cases whole : 0 ≤ exponent
  · have reads := readUnsigned_toDigits positive negative (Nat.toDigits 10 number) []
      ⟨[], List.append_nil _⟩ Nat.toDigits_ne_nil (by simp) exponent.toNat
    rw [List.append_nil] at reads
    refine ⟨⟨negative, number * 10 ^ exponent.toNat, 0⟩, ?_, rfl, ?_⟩
    · rw [positional, if_pos whole, reads, readFraction_bare _ _ (by simp) rfl, ofDigitChars_zeros]
    · have power : (10 : ℚ) ^ exponent.toNat = 10 ^ exponent := by
        rw [← zpow_natCast, Int.toNat_of_nonneg whole]
      simp [Literal.magnitude, Decimal.value, power]
  · refine ⟨⟨negative, number, exponent⟩, ?_, rfl, rfl⟩
    have isExponent : (0 : ℤ) - (-exponent).toNat = exponent := by omega
    simp only [positional, if_neg whole]
    by_cases inside : (-exponent).toNat < (Nat.toDigits 10 number).length
    · have reads := readUnsigned_pointed positive negative [] (List.take_append_drop
        ((Nat.toDigits 10 number).length - (-exponent).toNat) (Nat.toDigits 10 number))
        (by simp; omega) (by simp; omega) (by simp) rfl
      rw [List.append_nil, List.length_drop, Nat.sub_sub_self inside.le, isExponent] at reads
      rw [if_pos inside, reads]
    · have width : (-exponent).toNat - (Nat.toDigits 10 number).length +
          (Nat.toDigits 10 number).length = (-exponent).toNat := by omega
      rw [if_neg inside, readUnsigned_leading, width, isExponent]

include positive in
theorem read_scientific : ∃ literal,
    readUnsigned negative (scientific (Nat.toDigits 10 number) exponent) = some literal ∧
      literal.negative = negative ∧ literal.magnitude = (Decimal.mk number exponent).value := by
  refine ⟨⟨negative, number, exponent⟩, ?_, rfl, rfl⟩
  have lengthPos : 0 < (Nat.toDigits 10 number).length :=
    List.length_pos_iff.mpr Nat.toDigits_ne_nil
  have isPower := readExponent_signed (exponent + (Nat.toDigits 10 number).length - 1)
  simp only [scientific]
  generalize isMark : (if exponent + (Nat.toDigits 10 number).length - 1 < 0 then '-' else '+') ::
    Nat.toDigits 10 (exponent + (Nat.toDigits 10 number).length - 1).natAbs = mark at isPower ⊢
  have ends : ∀ c ∈ ('e' :: mark).head?, c.isDigit = false := by simp
  by_cases single : (Nat.toDigits 10 number).length = 1
  · have reads := readUnsigned_toDigits positive negative (Nat.toDigits 10 number) ('e' :: mark)
      ⟨[], List.append_nil _⟩ Nat.toDigits_ne_nil ends 0
    have isExponent : exponent + (Nat.toDigits 10 number).length - 1 = exponent := by omega
    rw [List.replicate_zero, List.append_nil, readFraction_bare _ _ (by simp) isPower,
      Nat.ofDigitChars_ten_toDigits, isExponent] at reads
    have isWhole : (Nat.toDigits 10 number).take 1 = Nat.toDigits 10 number :=
      List.take_of_length_le single.le
    have noMore : (Nat.toDigits 10 number).drop 1 = [] := List.drop_eq_nil_of_le single.le
    rw [if_pos single, isWhole, noMore, List.append_nil, List.append_nil]
    exact reads
  · have reads := readUnsigned_pointed positive negative ('e' :: mark)
      (List.take_append_drop 1 (Nat.toDigits 10 number)) (by simp)
      (fun isNil => single (le_antisymm (List.drop_eq_nil_iff.mp isNil) lengthPos)) ends isPower
    have isExponent : exponent + (Nat.toDigits 10 number).length - 1 -
        ((Nat.toDigits 10 number).drop 1).length = exponent := by
      rw [List.length_drop]
      omega
    rw [isExponent] at reads
    rw [if_neg single]
    simpa using reads

end Written

/-- The text of a magnitude is read as the magnitude. -/
theorem read_magnitudeText {magnitude : ℚ} (negative : Bool) (nonneg : 0 ≤ magnitude)
    (isDouble : nearest magnitude = some magnitude) : ∃ literal,
      readUnsigned negative (magnitudeText magnitude) = some literal ∧
        literal.negative = negative ∧ nearest literal.magnitude = some magnitude := by
  have isRead := nearest_shortest nonneg isDouble
  simp only [magnitudeText]
  by_cases isZero : magnitude = 0
  · subst isZero
    rw [if_pos rfl]
    refine ⟨⟨negative, 0, 0⟩, rfl, rfl, ?_⟩
    have zero : Literal.magnitude ⟨negative, 0, 0⟩ = 0 := by simp [Literal.magnitude, Decimal.value]
    rwa [zero]
  · rw [if_neg isZero]
    have positive : 0 < (shortest magnitude).digits := by
      by_contra none
      have noDigits : (shortest magnitude).digits = 0 := by omega
      have zero : nearest 0 = some 0 := by decide +kernel
      rw [Decimal.value, noDigits, Nat.cast_zero, zero_mul, zero] at isRead
      exact isZero (Option.some.inj isRead).symm
    split_ifs
    · rcases read_scientific positive negative (shortest magnitude).exponent with
        ⟨literal, reads, signs, isMagnitude⟩
      exact ⟨literal, reads, signs, by rw [isMagnitude]; exact isRead⟩
    · rcases read_positional positive negative (shortest magnitude).exponent with
        ⟨literal, reads, signs, isMagnitude⟩
      exact ⟨literal, reads, signs, by rw [isMagnitude]; exact isRead⟩

theorem opens_of_readUnsigned {negative : Bool} {chars : List Char} {literal : Literal}
    (reads : readUnsigned negative chars = some literal) :
    ∃ c rest, chars = c :: rest ∧ c.isDigit = true := by
  cases chars with
  | nil => cases reads
  | cons c rest =>
      refine ⟨c, rest, rfl, ?_⟩
      by_contra notDigit
      have noWhole : ([] ++ c :: rest).span Char.isDigit = ([], c :: rest) := by
        apply span_digits
        · simp
        · simpa using notDigit
      rw [List.nil_append] at noWhole
      rw [readUnsigned, noWhole] at reads
      simp at reads

theorem magnitudeText_opens {magnitude : ℚ} (nonneg : 0 ≤ magnitude)
    (isDouble : nearest magnitude = some magnitude) :
    ∃ c rest, magnitudeText magnitude = c :: rest ∧ c.isDigit = true := by
  rcases read_magnitudeText false nonneg isDouble with ⟨literal, reads, -⟩
  exact opens_of_readUnsigned reads

/-- The text of a double is a number literal that is read as the double. -/
theorem Double.read_text (double : Double) :
    (readNumber double.text).bind parseFloat = some double := by
  rcases read_magnitudeText double.negative double.nonneg double.isDouble with
    ⟨literal, reads, signs, isMagnitude⟩
  have parses : parseFloat literal = some double := parseFloat_eq_some.mpr ⟨signs, isMagnitude⟩
  rw [Double.text]
  split_ifs with isNegative
  · rw [isNegative] at reads
    rw [readNumber, reads]
    exact parses
  · rcases magnitudeText_opens double.nonneg double.isDouble with ⟨c, rest, opens, isDigit⟩
    have isUnsigned : readNumber (magnitudeText double.magnitude) =
        readUnsigned false (magnitudeText double.magnitude) := by
      unfold readNumber
      split
      · rename_i more isMinus
        rw [opens] at isMinus
        cases isMinus
        simp at isDigit
      · rfl
    have isPositive : double.negative = false := Bool.eq_false_of_not_eq_true isNegative
    rw [isPositive] at reads
    rw [isUnsigned, reads]
    exact parses

theorem Double.text_inj {first second : Double} (same : first.text = second.text) :
    first = second := by
  have reads := first.read_text
  rw [same, second.read_text] at reads
  exact (Option.some.inj reads).symm

theorem Double.text_opens (double : Double) :
    ∃ c rest, double.text = c :: rest ∧ (c = '-' ∨ c.isDigit = true) := by
  rw [Double.text]
  split_ifs
  · exact ⟨'-', _, rfl, .inl rfl⟩
  · rcases magnitudeText_opens double.nonneg double.isDouble with ⟨c, rest, opens, isDigit⟩
    exact ⟨c, rest, opens, .inr isDigit⟩

/-- The characters a number is written with. -/
def isNumberChar (c : Char) : Bool := c.isDigit || c == '.' || c == 'e' || c == '+' || c == '-'

theorem isNumberChar_toDigits (number : ℕ) :
    ∀ c ∈ Nat.toDigits 10 number, isNumberChar c = true := by
  intro c isThere
  simp [isNumberChar, isDigit_toDigits number c isThere]

theorem isNumberChar_zeros (zeros : ℕ) :
    ∀ c ∈ List.replicate zeros '0', isNumberChar c = true := by
  intro c isZero
  rw [List.eq_of_mem_replicate isZero]
  rfl

theorem isNumberChar_positional (number : ℕ) (exponent : ℤ) :
    ∀ c ∈ positional (Nat.toDigits 10 number) exponent, isNumberChar c = true := by
  intro c isThere
  simp only [positional] at isThere
  split_ifs at isThere
  · rcases List.mem_append.mp isThere with isDigit | isZero
    · exact isNumberChar_toDigits number c isDigit
    · exact isNumberChar_zeros _ c isZero
  · rcases List.mem_append.mp isThere with isDigit | isRest
    · exact isNumberChar_toDigits number c (List.mem_of_mem_take isDigit)
    · rcases List.mem_cons.mp isRest with rfl | isDigit
      · rfl
      · exact isNumberChar_toDigits number c (List.mem_of_mem_drop isDigit)
  · rcases List.mem_cons.mp isThere with rfl | isRest
    · rfl
    · rcases List.mem_cons.mp isRest with rfl | isFraction
      · rfl
      · rcases List.mem_append.mp isFraction with isZero | isDigit
        · exact isNumberChar_zeros _ c isZero
        · exact isNumberChar_toDigits number c isDigit

theorem isNumberChar_scientific (number : ℕ) (exponent : ℤ) :
    ∀ c ∈ scientific (Nat.toDigits 10 number) exponent, isNumberChar c = true := by
  intro c isThere
  simp only [scientific, List.mem_append, List.mem_cons] at isThere
  rcases isThere with ((isFirst | isPoint) | isRest) | rfl | rfl | isDigit
  · exact isNumberChar_toDigits number c (List.mem_of_mem_take isFirst)
  · split_ifs at isPoint
    · cases isPoint
    · cases List.mem_singleton.mp isPoint
      rfl
  · exact isNumberChar_toDigits number c (List.mem_of_mem_drop isRest)
  · rfl
  · split_ifs <;> rfl
  · exact isNumberChar_toDigits _ c isDigit

theorem Double.isNumberChar_text (double : Double) :
    ∀ c ∈ double.text, isNumberChar c = true := by
  have ofMagnitude : ∀ c ∈ magnitudeText double.magnitude, isNumberChar c = true := by
    intro c isThere
    simp only [magnitudeText] at isThere
    split_ifs at isThere
    · cases List.mem_singleton.mp isThere
      rfl
    · exact isNumberChar_scientific _ _ c isThere
    · exact isNumberChar_positional _ _ c isThere
  intro c isThere
  rw [Double.text] at isThere
  split_ifs at isThere
  · rcases List.mem_cons.mp isThere with rfl | isMagnitude
    · rfl
    · exact ofMagnitude c isMagnitude
  · exact ofMagnitude c isThere

end Aa.Library.JsonNumber
