import BoingObserver.Js.Coerce
import BoingObserver.Js.Decimal
import Mathlib.Data.Int.Log
import Mathlib.Tactic.Linarith
import Mathlib.Tactic.Positivity

/-!
# Rounded texts of numbers

`x.toFixed(f)` and `x.toExponential(0)`, with exact arithmetic: the nearest number that
can be written, the larger one of two.

* `abs_roundNearest_sub_le`, `roundNearest_mono`: rounding to a unit.
* `toFixed_eq`: what `toFixed` writes is the rounded number.
-/

namespace BoingObserver.Js

/-! ## Rounding to a unit -/

/-- `q` rounded to a whole number of units. -/
def roundNearest (u q : ℚ) : ℚ := ⌊q / u + 1 / 2⌋ * u

section

variable {u q r : ℚ} (hu : 0 < u)
include hu

theorem abs_roundNearest_sub_le : |roundNearest u q - q| ≤ u / 2 := by
  have hq : q / u * u = q := div_mul_cancel₀ q hu.ne'
  have hle := mul_le_mul_of_nonneg_right (Int.floor_le (q / u + 1 / 2)) hu.le
  have hlt := mul_le_mul_of_nonneg_right (Int.lt_floor_add_one (q / u + 1 / 2)).le hu.le
  rw [add_mul, hq] at hle
  rw [add_mul, add_mul, hq, one_mul] at hlt
  rw [roundNearest, abs_le]
  constructor <;> linarith

theorem roundNearest_mono (h : q ≤ r) : roundNearest u q ≤ roundNearest u r := by
  have hfloor : ⌊q / u + 1 / 2⌋ ≤ ⌊r / u + 1 / 2⌋ :=
    Int.floor_le_floor (by linarith [div_le_div_of_nonneg_right h hu.le])
  exact mul_le_mul_of_nonneg_right (Int.cast_le.mpr hfloor) hu.le

omit hu in
theorem roundNearest_scale {c : ℚ} (hc : c ≠ 0) (u q : ℚ) :
    roundNearest (u * c) (q * c) = roundNearest u q * c := by
  rw [roundNearest, roundNearest, mul_div_mul_right _ _ hc, mul_assoc]

theorem roundNearest_mul (z : ℤ) : roundNearest u (z * u) = z * u := by
  rw [roundNearest, mul_div_cancel_right₀ _ hu.ne', Int.floor_intCast_add]
  norm_num

omit hu in
theorem roundNearest_zero (u : ℚ) : roundNearest u 0 = 0 := by
  rw [roundNearest, zero_div, zero_add]
  norm_num

end

/-! ## Fixed decimals -/

def sign (q : ℚ) : Text := if q < 0 then "-" else []

/-- The digits of the nearest whole number of `10 ^ -f`. -/
def fixedDigits (f : ℕ) (q : ℚ) : ℕ := ⌊q * 10 ^ f + 1 / 2⌋.toNat

/-- `q.toFixed(f)` -/
def toFixed (nt : NumberText) (f : ℕ) (q : ℚ) : Text :=
  let m := padDecimal (f + 1) (fixedDigits f |q|)
  sign q ++
    if 10 ^ 21 ≤ |q| then nt.text (.finite |q|)
    else if f = 0 then decimal (fixedDigits f |q|)
    else m.take (m.length - f) ++ "." ++ m.drop (m.length - f)

/-- `q.toExponential(0)` -/
def toExponential (q : ℚ) : Text :=
  if q = 0 then "0e+0"
  else
    let e := Int.log 10 |q|
    let n := ⌊|q| / 10 ^ e + 1 / 2⌋.toNat
    let (n, e) := if n = 10 then (1, e + 1) else (n, e)
    sign q ++ decimal n ++ "e" ++ (if e < 0 then "-" else "+") ++ decimal e.natAbs

section

variable {f : ℕ} {q : ℚ}

theorem fixedDigits_div (h : 0 ≤ q) (f : ℕ) :
    (fixedDigits f q : ℚ) / 10 ^ f = roundNearest (1 / 10 ^ f) q := by
  have hpos : 0 ≤ ⌊q * 10 ^ f + 1 / 2⌋ := Int.floor_nonneg.mpr (by positivity)
  have hcast : ((⌊q * 10 ^ f + 1 / 2⌋.toNat : ℕ) : ℚ) = (⌊q * 10 ^ f + 1 / 2⌋ : ℤ) := by
    exact_mod_cast Int.toNat_of_nonneg hpos
  rw [fixedDigits, hcast, roundNearest, div_div_eq_mul_div, div_one, mul_one_div]

/-- **What is written** of a number that is not negative nor too large. -/
theorem toFixed_eq (nt : NumberText) (h : 0 ≤ q) (hlt : q < 10 ^ 21) (f : ℕ) :
    toFixed nt f q = if f = 0 then decimal (fixedDigits f q)
      else decimal (fixedDigits f q / 10 ^ f) ++ '.' :: padDecimal f (fixedDigits f q % 10 ^ f) := by
  rw [toFixed, abs_of_nonneg h, sign, if_neg (not_lt.mpr h), if_neg (not_le.mpr hlt)]
  by_cases hf : f = 0
  · rw [if_pos hf, if_pos hf]
    rfl
  · rw [if_neg hf, if_neg hf, take_padDecimal (Nat.pos_of_ne_zero hf),
      drop_padDecimal (Nat.pos_of_ne_zero hf), List.append_assoc]
    rfl

end

end BoingObserver.Js
