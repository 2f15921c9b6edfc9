import Mathlib

/-!
# Products of an integer and a double

`int(n * x)` for a natural number `n` and a positive double `x`, in the arithmetic of
IEEE 754: `n` and the exact product are each rounded to 53 significant bits, ties to
even, and the result is cut to an integer. The double is given as the fraction
`mantissa / 2 ^ scale`. Overflow to infinity is outside the range of the model.
-/

namespace Aa.Library.Double

/-- A natural number rounded to 53 significant bits, ties to even. -/
def round53 (value : ℕ) : ℕ :=
  if value < 2 ^ 53 then value
  else
    let shift := value.log2 - 52
    let quotient := value / 2 ^ shift
    let remainder := value % 2 ^ shift
    if 2 * remainder < 2 ^ shift || (2 * remainder = 2 ^ shift && quotient % 2 = 0) then
      quotient * 2 ^ shift
    else (quotient + 1) * 2 ^ shift

/-- Rounding adds at most one unit in the last place. -/
theorem round53_le (value : ℕ) : round53 value ≤ value + value / 2 ^ 52 := by
  unfold round53
  split
  · omega
  · rename_i isLarge
    have isLog : 53 ≤ value.log2 := (Nat.le_log2 (by omega)).mpr (by omega)
    have isUnit : 2 ^ (value.log2 - 52) ≤ value / 2 ^ 52 := by
      rw [Nat.le_div_iff_mul_le (by positivity), ← pow_add, Nat.sub_add_cancel (by omega)]
      exact Nat.log2_self_le (by omega)
    have floored := Nat.div_mul_le_self value (2 ^ (value.log2 - 52))
    dsimp only
    split
    · omega
    · rw [add_mul, one_mul]
      omega

/-- `int(n * x)` for the double `x = mantissa / 2 ^ scale`. -/
def truncMul (n mantissa scale : ℕ) : ℕ :=
  round53 (round53 n * mantissa) / 2 ^ scale

end Aa.Library.Double
