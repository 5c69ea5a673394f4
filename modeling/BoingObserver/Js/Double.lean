import Mathlib.Tactic.Ring
import Mathlib.Algebra.Order.Ring.Nat

/-!
# Products of doubles

A product of doubles is rounded to 53 binary digits, halves to even.  A natural number
times a double `c / 2 ^ 53` is kept here as the natural number of `2 ^ -53`s it has.

* `lt_roundTo_add`: rounding takes off less than a unit.
* `le_two_mul_roundDouble`: a rounded product is at least half of the exact one.
-/

namespace BoingObserver.Js

/-- The multiple of a unit nearest to `m`; of two, the even one. -/
def roundTo (unit m : ℕ) : ℕ :=
  if 2 * (m % unit) < unit ∨ (2 * (m % unit) = unit ∧ m / unit % 2 = 0) then m / unit * unit
  else (m / unit + 1) * unit

/-- `m` rounded to 53 binary digits. -/
def roundDouble (m : ℕ) : ℕ := roundTo (2 ^ (Nat.log2 m - 52)) m

/-- `Math.ceil` of so many `2 ^ -53`s. -/
def ceilDouble (m : ℕ) : ℕ := (m + (2 ^ 53 - 1)) / 2 ^ 53

theorem lt_roundTo_add {unit : ℕ} (h : 0 < unit) (m : ℕ) : m < roundTo unit m + unit := by
  have hlt := Nat.mod_lt m h
  have hm : m / unit * unit + m % unit = m := Nat.div_add_mod' m unit
  rw [roundTo]
  split
  · omega
  · rw [Nat.succ_mul]
    omega

/-- **A rounded product is at least half of the exact one.** -/
theorem le_two_mul_roundDouble (m : ℕ) : m ≤ 2 * roundDouble m := by
  have hlt : m < roundDouble m + 2 ^ (Nat.log2 m - 52) := lt_roundTo_add (Nat.two_pow_pos _) m
  by_cases hsmall : Nat.log2 m ≤ 52
  · rw [Nat.sub_eq_zero_of_le hsmall, pow_zero] at hlt
    omega
  · have hm : m ≠ 0 := by
      rintro rfl
      exact hsmall (by decide)
    have hlog : 2 ^ Nat.log2 m ≤ m := Nat.log2_self_le hm
    have hsplit : 2 ^ Nat.log2 m = 2 ^ (Nat.log2 m - 52) * 2 ^ 52 := by
      rw [← pow_add, Nat.sub_add_cancel (by omega)]
    omega

end BoingObserver.Js
