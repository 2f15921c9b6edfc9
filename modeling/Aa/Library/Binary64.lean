import Mathlib.Data.Int.Log
import Mathlib.Data.Rat.Floor
import Mathlib.Tactic.Linarith
import Mathlib.Tactic.NormNum
import Mathlib.Tactic.Positivity
import Mathlib.Tactic.FieldSimp
import Mathlib.Tactic.Ring

/-!
# Reading decimals as doubles, and writing doubles as decimals

A nonnegative number is read as the nearest double, ties to even, and a double is written
with the fewest digits that are read as it.
-/

namespace Aa.Library.Binary64

/-- The nearest integer, ties to even. -/
def roundHalfEven (value : ℚ) : ℤ :=
  if value - ⌊value⌋ < 1 / 2 then ⌊value⌋
  else if 1 / 2 < value - ⌊value⌋ then ⌊value⌋ + 1
  else if ⌊value⌋ % 2 = 0 then ⌊value⌋
  else ⌊value⌋ + 1

/-- The exponent of the last of the 53 significant bits of a double, or of the last bit of a
subnormal one. -/
def unitExponent (value : ℚ) : ℤ := max (Int.log 2 value - 52) (-1074)

/-- A number rounded to the precision of a double, in a range without bounds. -/
def rounded (value : ℚ) : ℚ :=
  roundHalfEven (value / 2 ^ unitExponent value) * 2 ^ unitExponent value

/-- The nearest double, unless it is out of range. -/
def nearest (value : ℚ) : Option ℚ :=
  if rounded value < 2 ^ 1024 then some (rounded value) else none

theorem roundHalfEven_intCast (number : ℤ) : roundHalfEven number = number := by
  simp [roundHalfEven]

theorem roundHalfEven_nonneg {value : ℚ} (nonneg : 0 ≤ value) : 0 ≤ roundHalfEven value := by
  have below : 0 ≤ ⌊value⌋ := Int.floor_nonneg.mpr nonneg
  unfold roundHalfEven
  split_ifs
  all_goals omega

theorem roundHalfEven_le {value : ℚ} {bound : ℤ} (below : value < bound) :
    roundHalfEven value ≤ bound := by
  have isBelow : ⌊value⌋ < bound := Int.floor_lt.mpr below
  unfold roundHalfEven
  split_ifs
  all_goals omega

theorem two_zpow_pos (exponent : ℤ) : (0 : ℚ) < 2 ^ exponent := zpow_pos (by norm_num) exponent

theorem two_zpow_add (first second : ℤ) : (2 : ℚ) ^ (first + second) = 2 ^ first * 2 ^ second :=
  zpow_add₀ (by norm_num) first second

theorem lt_two_zpow (value : ℚ) : value < 2 ^ (unitExponent value + 53) := by
  have upper : value < ((2 : ℕ) : ℚ) ^ (Int.log 2 value + 1) :=
    Int.lt_zpow_succ_log_self (by norm_num) value
  have exponents : Int.log 2 value + 1 ≤ unitExponent value + 53 := by
    unfold unitExponent
    omega
  calc value < (2 : ℚ) ^ (Int.log 2 value + 1) := by exact_mod_cast upper
    _ ≤ 2 ^ (unitExponent value + 53) := zpow_le_zpow_right₀ (by norm_num) exponents

/-- A number has at most 53 bits in units of its last place. -/
theorem roundHalfEven_unit_le (value : ℚ) :
    roundHalfEven (value / 2 ^ unitExponent value) ≤ 2 ^ 53 := by
  refine roundHalfEven_le ?_
  rw [div_lt_iff₀ (two_zpow_pos _)]
  have upper := lt_two_zpow value
  rw [add_comm, two_zpow_add] at upper
  exact_mod_cast upper

/-- A multiple of the unit in its last place is a double. -/
theorem rounded_of_multiple {value : ℚ} (number : ℤ)
    (isMultiple : value = number * 2 ^ unitExponent value) : rounded value = value := by
  have quotient : value / 2 ^ unitExponent value = number := by
    rw [div_eq_iff (two_zpow_pos _).ne']
    exact isMultiple
  rw [rounded, quotient, roundHalfEven_intCast, ← isMultiple]

/-- A number of 53 bits times a power of two in range is a double. -/
theorem rounded_of_bits {number exponent : ℤ} (nonneg : 0 ≤ number) (bits : number < 2 ^ 53)
    (inRange : -1074 ≤ exponent) :
    rounded (number * 2 ^ exponent) = number * 2 ^ exponent := by
  rcases nonneg.eq_or_lt with rfl | positive
  · simp [rounded, roundHalfEven]
  · have valuePos : (0 : ℚ) < number * 2 ^ exponent :=
      mul_pos (by exact_mod_cast positive) (two_zpow_pos exponent)
    have isBelow : (number : ℚ) * 2 ^ exponent < 2 ^ (53 + exponent) := by
      rw [two_zpow_add]
      exact mul_lt_mul_of_pos_right (by exact_mod_cast bits) (two_zpow_pos exponent)
    have logBelow : Int.log 2 ((number : ℚ) * 2 ^ exponent) < 53 + exponent :=
      (Int.lt_zpow_iff_log_lt (by norm_num) valuePos).mp (by exact_mod_cast isBelow)
    have unitLe : unitExponent ((number : ℚ) * 2 ^ exponent) ≤ exponent := by
      unfold unitExponent
      omega
    have exponents : exponent = (exponent - unitExponent ((number : ℚ) * 2 ^ exponent)).toNat +
        unitExponent ((number : ℚ) * 2 ^ exponent) := by omega
    refine rounded_of_multiple (number * 2 ^ (exponent -
      unitExponent ((number : ℚ) * 2 ^ exponent)).toNat) ?_
    push_cast
    rw [mul_assoc, ← zpow_natCast, ← two_zpow_add, ← exponents]

/-- A double is read as itself. -/
theorem rounded_rounded {value : ℚ} (nonneg : 0 ≤ value) :
    rounded (rounded value) = rounded value := by
  have quotientNonneg : 0 ≤ value / 2 ^ unitExponent value := by
    exact div_nonneg nonneg (two_zpow_pos _).le
  have bitsLe := roundHalfEven_unit_le value
  have inRange : -1074 ≤ unitExponent value := le_max_right _ _
  have bitsNonneg := roundHalfEven_nonneg quotientNonneg
  rcases bitsLe.eq_or_lt with isFull | isBelow
  · have carried : rounded value = ((2 ^ 52 : ℤ) : ℚ) * 2 ^ (1 + unitExponent value) := by
      rw [rounded, isFull, two_zpow_add]
      norm_num
      ring
    rw [carried]
    exact rounded_of_bits (by norm_num) (by norm_num) (by omega)
  · exact rounded_of_bits bitsNonneg isBelow inRange

/-- A double is the nearest to itself. -/
theorem nearest_of_nearest {value double : ℚ} (nonneg : 0 ≤ value)
    (isNearest : nearest value = some double) : nearest double = some double := by
  unfold nearest at isNearest
  split_ifs at isNearest with inRange
  cases Option.some.inj isNearest
  rw [nearest, rounded_rounded nonneg, if_pos inRange]

theorem nearest_nonneg {value double : ℚ} (nonneg : 0 ≤ value)
    (isNearest : nearest value = some double) : 0 ≤ double := by
  unfold nearest at isNearest
  split_ifs at isNearest
  cases Option.some.inj isNearest
  have bitsNonneg : 0 ≤ roundHalfEven (value / 2 ^ unitExponent value) :=
    roundHalfEven_nonneg (div_nonneg nonneg (two_zpow_pos _).le)
  exact mul_nonneg (by exact_mod_cast bitsNonneg) (two_zpow_pos _).le

theorem rounded_of_nearest {value : ℚ} (isDouble : nearest value = some value) :
    rounded value = value := by
  unfold nearest at isDouble
  split_ifs at isDouble
  exact Option.some.inj isDouble

/-! ## Out of range -/

/-- A half or more below an even integer is rounded to it or above. -/
theorem le_roundHalfEven_iff {value : ℚ} {bound : ℤ} (isEven : bound % 2 = 0) :
    bound ≤ roundHalfEven value ↔ (bound : ℚ) - 1 / 2 ≤ value := by
  have floor_le := Int.floor_le value
  have lt_floor := Int.lt_floor_add_one value
  rcases lt_trichotomy (⌊value⌋ + 1) bound with isBelow | isNext | isAbove
  · have isFar : ((⌊value⌋ + 2 : ℤ) : ℚ) ≤ bound := by
      exact_mod_cast (by omega : ⌊value⌋ + 2 ≤ bound)
    push_cast at isFar
    constructor
    · intro isRounded
      unfold roundHalfEven at isRounded
      split_ifs at isRounded
      all_goals omega
    · intro isNear
      linarith
  · have isBound : (bound : ℚ) = ⌊value⌋ + 1 := by
      rw [← isNext]
      push_cast
      rfl
    rw [isBound]
    unfold roundHalfEven
    split_ifs with isLess isMore isFloorEven
    · constructor
      · intro isRounded
        omega
      · intro isNear
        linarith
    · exact ⟨fun _ => by linarith, fun _ => by omega⟩
    · omega
    · exact ⟨fun _ => by linarith, fun _ => by omega⟩
  · have isFloor : ((bound : ℤ) : ℚ) ≤ ⌊value⌋ := by exact_mod_cast Int.lt_add_one_iff.mp isAbove
    constructor
    · intro _
      linarith
    · intro _
      unfold roundHalfEven
      split_ifs
      all_goals omega

/-- Rounding does not cross the power of two below a number. -/
theorem two_zpow_log_le_rounded {value : ℚ} (isPositive : 0 < value)
    (isNormal : -1022 ≤ Int.log 2 value) : (2 : ℚ) ^ Int.log 2 value ≤ rounded value := by
  have isUnit : unitExponent value = Int.log 2 value - 52 := by
    unfold unitExponent
    omega
  have isBelow : (2 : ℚ) ^ Int.log 2 value ≤ value := by
    exact_mod_cast Int.zpow_log_le_self (by norm_num : 1 < 2) isPositive
  have isSplit : (2 : ℚ) ^ Int.log 2 value = 2 ^ 52 * 2 ^ unitExponent value := by
    rw [isUnit, show (2 : ℚ) ^ 52 = 2 ^ (52 : ℤ) by norm_num, ← two_zpow_add]
    congr 1
    ring
  have bits : (2 ^ 52 : ℤ) ≤ roundHalfEven (value / 2 ^ unitExponent value) := by
    rw [le_roundHalfEven_iff (by norm_num)]
    have isQuotient : (2 : ℚ) ^ 52 ≤ value / 2 ^ unitExponent value := by
      rw [le_div_iff₀ (two_zpow_pos _), ← isSplit]
      exact isBelow
    push_cast
    linarith
  have bitsCast : (2 : ℚ) ^ 52 ≤ roundHalfEven (value / 2 ^ unitExponent value) := by
    exact_mod_cast bits
  rw [isSplit, rounded]
  exact mul_le_mul_of_nonneg_right bitsCast (two_zpow_pos _).le

/-- Rounding reaches at most the power of two above a number. -/
theorem rounded_le_two_zpow {value : ℚ} : rounded value ≤ 2 ^ (unitExponent value + 53) := by
  have bits := roundHalfEven_unit_le value
  have bitsCast : (roundHalfEven (value / 2 ^ unitExponent value) : ℚ) ≤ 2 ^ (53 : ℤ) := by
    exact_mod_cast bits
  rw [rounded, add_comm, two_zpow_add]
  exact mul_le_mul_of_nonneg_right bitsCast (two_zpow_pos _).le

theorem two_zpow_le_natCast {exponent number : ℕ} :
    (2 : ℚ) ^ (exponent : ℤ) ≤ number ↔ 2 ^ exponent ≤ number := by
  rw [zpow_natCast]
  exact_mod_cast Iff.rfl

theorem log_natCast_iff (exponent : ℕ) {number : ℕ} (isPositive : 0 < number) :
    (exponent : ℤ) ≤ Int.log 2 (number : ℚ) ↔ 2 ^ exponent ≤ number := by
  rw [← two_zpow_le_natCast]
  exact (Int.zpow_le_iff_le_log (by norm_num : 1 < 2) (by exact_mod_cast isPositive)).symm

/-- An integer is rounded to a power of two or above from half a unit in the last place below it. -/
theorem two_pow_le_rounded_iff (low number : ℕ) :
    (2 : ℚ) ^ (low + 54) ≤ rounded number ↔ (2 ^ 54 - 1) * 2 ^ low ≤ number := by
  have isTop : 2 ^ (low + 54) = 2 ^ 54 * 2 ^ low := by ring
  have isNext : 2 ^ (low + 53) = 2 ^ 53 * 2 ^ low := by ring
  have positive : 0 < 2 ^ low := Nat.two_pow_pos low
  rcases Nat.lt_or_ge number (2 ^ (low + 53)) with isSmall | isLarge
  · have isUnit : unitExponent number ≤ low := by
      rcases Nat.eq_zero_or_pos number with rfl | isPositive
      · simp [unitExponent]
      · have notLarge := (log_natCast_iff (low + 53) isPositive).not.mpr (by omega)
        unfold unitExponent
        push_cast at notLarge
        omega
    have isRounded : rounded number ≤ 2 ^ ((low + 53 : ℕ) : ℤ) :=
      rounded_le_two_zpow.trans (zpow_le_zpow_right₀ (by norm_num) (by push_cast; omega))
    rw [zpow_natCast] at isRounded
    have isGap : (2 : ℚ) ^ (low + 53) < 2 ^ (low + 54) := pow_lt_pow_right₀ (by norm_num) (by omega)
    constructor
    · intro isOver
      linarith
    · intro isOver
      omega
  · have isPositive : 0 < number := (Nat.two_pow_pos _).trans_le isLarge
    have isLog := (log_natCast_iff _ isPositive).mpr isLarge
    rcases Nat.lt_or_ge number (2 ^ (low + 54)) with isBelow | isAbove
    · have notAbove := (log_natCast_iff (low + 54) isPositive).not.mpr (by omega)
      have isUnit : unitExponent number = ((low + 1 : ℕ) : ℤ) := by
        unfold unitExponent
        push_cast at isLog notAbove ⊢
        omega
      have isTopCast : (2 : ℚ) ^ (low + 54) = 2 ^ 53 * 2 ^ (low + 1) := by ring
      have bits : (2 : ℚ) ^ (low + 54) ≤ rounded number ↔
          (2 ^ 53 : ℤ) ≤ roundHalfEven (number / 2 ^ (low + 1)) := by
        rw [rounded, isUnit, zpow_natCast, isTopCast, mul_le_mul_iff_left₀ (by positivity)]
        exact_mod_cast Iff.rfl
      have isBound : (((2 ^ 53 : ℤ) : ℚ) - 1 / 2) * 2 ^ (low + 1) =
          (((2 ^ 54 - 1) * 2 ^ low : ℕ) : ℚ) := by
        push_cast
        ring
      rw [bits, le_roundHalfEven_iff (by norm_num), le_div_iff₀ (by positivity), isBound,
        Nat.cast_le]
    · have isAboveLog := (log_natCast_iff _ isPositive).mpr isAbove
      constructor
      · intro _
        omega
      · intro _
        have lower := two_zpow_log_le_rounded (by exact_mod_cast isPositive : (0 : ℚ) < number)
          (by omega)
        refine le_trans ?_ lower
        rw [← zpow_natCast]
        exact zpow_le_zpow_right₀ (by norm_num) isAboveLog

/-- The integers that are too large for a double begin half a unit in the last place above the
largest double. -/
theorem nearest_natCast_eq_none_iff (number : ℕ) :
    nearest number = none ↔ (2 ^ 54 - 1) * 2 ^ 970 ≤ number := by
  rw [← two_pow_le_rounded_iff, nearest]
  split_ifs with inRange
  · refine ⟨fun isNone => ?_, fun isOver => absurd inRange (not_lt.mpr isOver)⟩
    cases isNone
  · exact ⟨fun _ => not_lt.mp inRange, fun _ => rfl⟩

/-! ## The fewest digits -/

/-- Digits before a power of ten. -/
structure Decimal where
  digits : ℕ
  exponent : ℤ
deriving DecidableEq

namespace Decimal

def value (decimal : Decimal) : ℚ := decimal.digits * 10 ^ decimal.exponent

theorem value_nonneg (decimal : Decimal) : 0 ≤ decimal.value :=
  mul_nonneg (Nat.cast_nonneg _) (zpow_pos (by norm_num) _).le

end Decimal

/-- Digits that were carried to a power of ten have one digit only. -/
def carry (precision : ℕ) (exponent digits : ℤ) : Decimal :=
  if digits = 10 ^ (precision + 1) then ⟨1, exponent + precision + 1⟩ else ⟨digits.toNat, exponent⟩

/-- The decimals on both sides of a number, of 1 to 17 digits, the nearer one first. -/
def candidates (value : ℚ) : List Decimal :=
  (List.range 17).flatMap fun (precision : ℕ) =>
    let exponent := Int.log 10 value - precision
    let nearer := roundHalfEven (value / 10 ^ exponent)
    [carry precision exponent nearer,
      carry precision exponent (2 * ⌊value / 10 ^ exponent⌋ + 1 - nearer)]

/-- All the digits of a double. -/
def exactDecimal (value : ℚ) : Decimal :=
  let bits := (roundHalfEven (value / 2 ^ unitExponent value)).toNat
  if 0 ≤ unitExponent value then ⟨bits * 2 ^ (unitExponent value).toNat, 0⟩
  else ⟨bits * 5 ^ (-unitExponent value).toNat, unitExponent value⟩

theorem value_exactDecimal {value : ℚ} (nonneg : 0 ≤ value) (isDouble : rounded value = value) :
    (exactDecimal value).value = value := by
  have bitsNonneg : 0 ≤ roundHalfEven (value / 2 ^ unitExponent value) :=
    roundHalfEven_nonneg (div_nonneg nonneg (two_zpow_pos _).le)
  have bitsCast : (((roundHalfEven (value / 2 ^ unitExponent value)).toNat : ℕ) : ℚ) =
      roundHalfEven (value / 2 ^ unitExponent value) := by
    exact_mod_cast Int.toNat_of_nonneg bitsNonneg
  rw [exactDecimal]
  split_ifs with whole
  · have power : (2 : ℚ) ^ (unitExponent value).toNat = 2 ^ unitExponent value := by
      rw [← zpow_natCast, Int.toNat_of_nonneg whole]
    simp only [Decimal.value, Nat.cast_mul, Nat.cast_pow, Nat.cast_ofNat, bitsCast, power,
      zpow_zero, mul_one]
    exact isDouble
  · have power : (5 : ℚ) ^ (-unitExponent value).toNat * 10 ^ unitExponent value =
        2 ^ unitExponent value := by
      rw [← zpow_natCast, Int.toNat_of_nonneg (by omega),
        show (10 : ℚ) = 5 * 2 by norm_num, mul_zpow, ← mul_assoc, ← zpow_add₀ (by norm_num)]
      simp
    simp only [Decimal.value, Nat.cast_mul, Nat.cast_pow, Nat.cast_ofNat, bitsCast, mul_assoc,
      power]
    exact isDouble

/-- The decimal a double is written as: the first candidate that is read as the double. -/
def shortest (value : ℚ) : Decimal :=
  ((candidates value).find? fun decimal => nearest decimal.value = some value).getD
    (exactDecimal value)

/-- What is written for a double is read as it. -/
theorem nearest_shortest {value : ℚ} (nonneg : 0 ≤ value)
    (isDouble : nearest value = some value) : nearest (shortest value).value = some value := by
  rw [shortest]
  cases found : (candidates value).find? fun decimal => nearest decimal.value = some value with
  | some decimal => simpa using List.find?_some found
  | none =>
      rw [Option.getD_none, value_exactDecimal nonneg (rounded_of_nearest isDouble)]
      exact isDouble

example : nearest 9007199254740993 = some 9007199254740992 := by decide +kernel

end Aa.Library.Binary64
