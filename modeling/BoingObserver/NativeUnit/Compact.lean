import BoingObserver.NativeUnit.Exact
import BoingObserver.NativeUnit.Short
import Mathlib.Tactic.Linarith

/-!
# What a short amount denotes

The `short` text of an amount in `native-unit.ts` as a number: grouped digits with a
fraction, a suffix, or scientific.

* `denoted_compactBoing`: the number is the amount cut to a unit.
* `compactBoing_never_overstates`: so it is never more than the amount, and larger
  amounts are not shown as smaller ones.
-/

namespace BoingObserver.NativeUnit

open Js

/-! ## Reading -/

def scale : Text → Option ℕ
  | [] => some 1
  | ['K'] => some (10 ^ 3)
  | ['M'] => some (10 ^ 6)
  | ['B'] => some (10 ^ 9)
  | ['T'] => some (10 ^ 12)
  | 'e' :: s => if IsDigits s then some (10 ^ numeral 10 s) else none
  | _ => none

/-- The number that a short text denotes: grouped digits with a fraction, and a suffix. -/
def denoted (s : Text) : Option ℚ :=
  match readFixed (ungroup s) with
  | some (q, rest) => (scale rest).map fun k : ℕ => q * (k : ℚ)
  | none => none

theorem denoted_eq_some {s int frac rest : Text} {k : ℕ} (hs : ungroup s = fixedText int frac ++ rest)
    (hint : IsDigits int) (hfrac : ∀ c ∈ frac, c.isDigit = true) (hrest : EndsNumber rest)
    (hk : scale rest = some k) : denoted s = some (fixedValue int frac * k) := by
  rw [denoted, hs, readFixed_fixedText hint hfrac hrest]
  dsimp only
  rw [hk, Option.map_some]

/-! ## Truncation -/

/-- `v` cut to a whole number of units. -/
def truncate (U v : ℕ) : ℕ := v / U * U

section

variable {U : ℕ} {v w : ℕ}

theorem truncate_le (U v : ℕ) : truncate U v ≤ v := Nat.div_mul_le_self v U

theorem lt_truncate_add (hU : 0 < U) (v : ℕ) : v < truncate U v + U := by
  have h := Nat.lt_mul_div_succ v hU
  rwa [Nat.mul_comm, Nat.add_one_mul] at h

theorem truncate_mono (U : ℕ) (h : v ≤ w) : truncate U v ≤ truncate U w :=
  Nat.mul_le_mul_right U (Nat.div_le_div_right h)

theorem le_truncate {t : ℕ} (ht : U ∣ t) (h : t ≤ v) : t ≤ truncate U v := by
  have hcut := truncate_mono U h
  rwa [truncate, Nat.div_mul_cancel ht] at hcut

/-- From `k` units on less than one part in `k + 1` is cut off. -/
theorem mul_lt_mul_truncate {k : ℕ} (hU : 0 < U) (hk : 0 < k) (h : k * U ≤ v) :
    k * v < (k + 1) * truncate U v := by
  have hunits : k * U ≤ truncate U v := le_truncate (Nat.dvd_mul_left U k) h
  calc k * v < k * (truncate U v + U) := Nat.mul_lt_mul_of_pos_left (lt_truncate_add hU v) hk
    _ = k * truncate U v + k * U := Nat.mul_add k _ U
    _ ≤ k * truncate U v + truncate U v := Nat.add_le_add_left hunits _
    _ = (k + 1) * truncate U v := (Nat.succ_mul k _).symm

end

/-! ## One decimal -/

theorem length_slice {n j : ℕ} (hj : j < (decimal n).length) :
    (slice (decimal n) j (j + 1)).length = 1 := by
  rw [slice, List.length_take, List.length_drop]
  omega

/-- Digits cut after one decimal, times the power of ten that was left out. -/
theorem fixedValue_slice {n j : ℕ} (hj : j < (decimal n).length) :
    fixedValue ((decimal n).take j) (slice (decimal n) j (j + 1)) *
        (10 ^ ((decimal n).length - j) : ℕ) =
      (truncate (10 ^ ((decimal n).length - j - 1)) n : ℕ) := by
  have hslice := length_slice hj
  have hdigits : (decimal n).take j ++ slice (decimal n) j (j + 1) = (decimal n).take (j + 1) := by
    rw [slice, Nat.add_sub_cancel_left, List.take_add]
  have hpow : 10 ^ ((decimal n).length - j) = 10 ^ ((decimal n).length - j - 1) * 10 := by
    rw [← pow_succ]
    congr 1
    omega
  rw [fixedValue, hdigits, hslice, numeral_take (isDigits_decimal n).2, numeral_decimal, hpow,
    truncate, Nat.sub_add_eq]
  push_cast
  ring

def pointAfter (n : ℕ) : ℕ :=
  if (decimal n).length ≤ 15 then (decimal n).length - ((decimal n).length - 1) / 3 * 3 else 1

/-- The base units that a short text still tells. -/
def shownUnit (v : ℕ) : ℕ :=
  let n := v / baseUnitsPerBoing
  if (decimal n).length ≤ 6 then 10 ^ 14
  else 10 ^ (18 + ((decimal n).length - pointAfter n - 1))

theorem endsNumber_singleton {c : Char} (h : c.isDigit = false ∧ c ≠ '.') : EndsNumber [c] := by
  rintro d ⟨⟩
  exact h

theorem suffix_spec {k : ℕ} (h2 : 2 ≤ k) (h4 : k ≤ 4) :
    EndsNumber (suffixes.getD k []) ∧ ',' ∉ suffixes.getD k [] ∧
      scale (suffixes.getD k []) = some (10 ^ (k * 3)) := by
  obtain rfl | rfl | rfl : k = 2 ∨ k = 3 ∨ k = 4 := by omega
  · exact ⟨endsNumber_singleton (by decide), by decide, rfl⟩
  · exact ⟨endsNumber_singleton (by decide), by decide, rfl⟩
  · exact ⟨endsNumber_singleton (by decide), by decide, rfl⟩

theorem exponent_spec (e : ℕ) :
    EndsNumber ('e' :: decimal e) ∧ ',' ∉ 'e' :: decimal e ∧
      scale ('e' :: decimal e) = some (10 ^ e) := by
  refine ⟨?_, List.not_mem_cons_of_ne_of_not_mem (by decide)
    (comma_not_mem (isDigits_decimal e).2), ?_⟩
  · rintro c ⟨⟩
    decide
  · rw [scale, if_pos (isDigits_decimal e), numeral_decimal]

section

variable {n : ℕ}

/-- A text of one decimal and a factor denotes the count, cut after that decimal. -/
theorem denoted_oneDecimal {j : ℕ} {frac rest : Text} (hj0 : 0 < j) (hj : j < (decimal n).length)
    (hfrac : ∀ c ∈ frac, c.isDigit = true)
    (hvalue : fixedValue ((decimal n).take j) frac =
      fixedValue ((decimal n).take j) (slice (decimal n) j (j + 1)))
    (hrest : EndsNumber rest ∧ ',' ∉ rest ∧ scale rest = some (10 ^ ((decimal n).length - j))) :
    denoted (fixedText ((decimal n).take j) frac ++ rest) =
      some ((truncate (10 ^ ((decimal n).length - j - 1)) n : ℕ) : ℚ) := by
  have hint : IsDigits ((decimal n).take j) := by
    refine ⟨List.ne_nil_of_length_pos ?_, fun c hc => (isDigits_decimal n).2 c (List.mem_of_mem_take hc)⟩
    rw [List.length_take]
    omega
  have hungroup : ungroup (fixedText ((decimal n).take j) frac ++ rest) =
      fixedText ((decimal n).take j) frac ++ rest := by
    rw [ungroup_append, ungroup_eq_self hrest.2.1]
    exact congrArg (· ++ rest) (ungroup_fixedText (ungroup_eq_self (comma_not_mem hint.2)) hfrac)
  rw [denoted_eq_some hungroup hint hfrac hrest.1 hrest.2.2, hvalue, fixedValue_slice hj]

theorem isDigit_slice {a b : ℕ} {c : Char} (h : c ∈ slice (decimal n) a b) : c.isDigit = true :=
  (isDigits_decimal n).2 c (List.mem_of_mem_drop (List.mem_of_mem_take h))

theorem denoted_suffixed (h6 : 6 < (decimal n).length) (h15 : (decimal n).length ≤ 15) :
    denoted (suffixed n) =
      some ((truncate (10 ^ ((decimal n).length - pointAfter n - 1)) n : ℕ) : ℚ) := by
  have hpoint : pointAfter n = (decimal n).length - ((decimal n).length - 1) / 3 * 3 := if_pos h15
  have hk : (decimal n).length - pointAfter n = ((decimal n).length - 1) / 3 * 3 := by omega
  have htext : suffixed n = fixedText ((decimal n).take (pointAfter n))
      (trimZeros (slice (decimal n) (pointAfter n) (pointAfter n + 1))) ++
      suffixes.getD (((decimal n).length - 1) / 3) [] := by
    obtain ⟨c, hc⟩ := List.length_eq_one_iff.mp (length_slice (n := n) (j := pointAfter n) (by omega))
    rw [suffixed, fixedText, ← hpoint, hc]
    by_cases hzero : c = '0'
    · subst hzero
      rw [if_pos (show (['0'] : Text) = "0" by rfl), if_pos (show trimZeros ['0'] = [] by rfl),
        List.append_nil]
    · have htrim : trimZeros [c] = [c] := trimZeros_of_ne (s := []) hzero
      have hne : [c] ≠ "0" := fun h => hzero (List.cons.inj h).1
      rw [if_neg hne, htrim, if_neg (List.cons_ne_nil c [])]
  rw [htext]
  refine denoted_oneDecimal (by omega) (by omega) (fun c hc => isDigit_slice (mem_of_mem_trimZeros hc))
    (fixedValue_trimZeros _ _) ?_
  rw [hk]
  exact suffix_spec (by omega) (by omega)

theorem denoted_scientific (h15 : 15 < (decimal n).length) : denoted (scientific n) =
    some ((truncate (10 ^ ((decimal n).length - pointAfter n - 1)) n : ℕ) : ℚ) := by
  have hpoint : pointAfter n = 1 := if_neg (not_le.mpr h15)
  have htext : scientific n = fixedText ((decimal n).take 1) (slice (decimal n) 1 2) ++
      'e' :: decimal ((decimal n).length - 1) := by
    have hne : slice (decimal n) 1 2 ≠ [] :=
      List.ne_nil_of_length_pos (by rw [length_slice (by omega)]; exact Nat.one_pos)
    rw [scientific, fixedText, if_neg hne, List.append_assoc, List.append_assoc, List.append_assoc,
      List.append_assoc]
    rfl
  rw [htext, hpoint]
  exact denoted_oneDecimal Nat.one_pos (by omega) (fun c hc => isDigit_slice hc) rfl
    (exponent_spec _)

end

/-! ## Amounts -/

section

variable {v : ℕ}

theorem baseUnitsPerBoing_eq : baseUnitsPerBoing = 10 ^ 18 := by decide

/-- Cutting the whole BOING cuts the base units. -/
theorem truncate_whole (v j : ℕ) :
    truncate (10 ^ (18 + j)) v = truncate (10 ^ j) (v / baseUnitsPerBoing) * 10 ^ 18 := by
  rw [truncate, truncate, pow_add, baseUnitsPerBoing_eq, ← Nat.div_div_eq_div_mul]
  ring

theorem numeral_fraction_four (v : ℕ) : numeral 10
    ((padDecimal 18 (v % baseUnitsPerBoing)).take 4) = v % baseUnitsPerBoing / 10 ^ 14 := by
  rw [numeral_take fun c hc => isDigit_padDecimal hc, numeral_padDecimal, length_decimals]

theorem tiny_iff (v : ℕ) : Tiny v 4 ↔ 0 < v ∧ v < 10 ^ 14 := by
  have hfrac : fraction v 4 = [] ↔ v % baseUnitsPerBoing / 10 ^ 14 = 0 := by
    rw [← numeral_fraction_four]
    exact trimZeros_eq_nil_iff fun c hc => isDigit_padDecimal (List.mem_of_mem_take hc)
  rw [Tiny, hfrac, baseUnitsPerBoing]
  omega

/-- **An amount below 10^6 BOING** is cut to four decimals. -/
theorem denoted_formatBoingBase (h : ¬ Tiny v 4) :
    denoted (formatBoingBase v 4) = some (((truncate (10 ^ 14) v : ℕ) : ℚ) / 10 ^ 18) := by
  have hungroup : ungroup (formatBoingBase v 4) =
      fixedText (decimal (v / baseUnitsPerBoing)) (fraction v 4) ++ [] := by
    rw [List.append_nil]
    exact ungroup_formatBoingBase_of_not_tiny h
  have hfour : ((padDecimal 18 (v % baseUnitsPerBoing)).take 4).length = 4 := by
    rw [List.length_take, length_decimals]
    rfl
  have hdigits : v / baseUnitsPerBoing * 10 ^ 4 + v % baseUnitsPerBoing / 10 ^ 14 =
      v / 10 ^ 14 := by
    rw [baseUnitsPerBoing]
    omega
  have hvalue : fixedValue (decimal (v / baseUnitsPerBoing)) (fraction v 4) =
      ((v / 10 ^ 14 : ℕ) : ℚ) / 10 ^ 4 := by
    refine (fixedValue_trimZeros _ ((padDecimal 18 (v % baseUnitsPerBoing)).take 4)).trans ?_
    rw [fixedValue, numeral_append, numeral_decimal, numeral_fraction_four, hfour, hdigits]
  rw [denoted_eq_some hungroup (isDigits_decimal _) (fun c hc => isDigit_fraction_base hc)
    endsNumber_nil rfl, hvalue, truncate]
  congr 1
  push_cast
  ring

/-- **What a short amount denotes**: the amount, cut to the unit that it still tells. -/
theorem denoted_compactBoing (h : ¬ Tiny v 4) :
    denoted (compactBoing v).short = some (((truncate (shownUnit v) v : ℕ) : ℚ) / 10 ^ 18) := by
  have hten : ((10 : ℚ) ^ 18) ≠ 0 := by norm_num
  rw [compactBoing, shownUnit]
  by_cases h6 : (decimal (v / baseUnitsPerBoing)).length ≤ 6
  · rw [if_neg (not_lt.mpr h6), if_pos h6]
    exact denoted_formatBoingBase h
  · have hwhole : v / baseUnitsPerBoing ≠ 0 := by
      intro hzero
      rw [hzero] at h6
      exact h6 (by decide)
    rw [if_pos (not_le.mp h6), if_neg h6, truncate_whole]
    dsimp only
    rw [short_compactAmount hwhole, if_neg h6, Nat.cast_mul, Nat.cast_pow, Nat.cast_ofNat,
      mul_div_cancel_right₀ _ hten]
    by_cases h15 : (decimal (v / baseUnitsPerBoing)).length ≤ 15
    · rw [if_pos h15]
      exact denoted_suffixed (not_le.mp h6) h15
    · rw [if_neg h15]
      exact denoted_scientific (not_le.mp h15)

/-! ## Bounds -/

/-- An amount of more than 6 digits is at least ten units, and its first digit is a multiple. -/
theorem shownUnit_of_lt (h6 : 6 < (decimal (v / baseUnitsPerBoing)).length) :
    10 * shownUnit v ∣ 10 ^ (18 + ((decimal (v / baseUnitsPerBoing)).length - 1)) ∧
      10 ^ (18 + ((decimal (v / baseUnitsPerBoing)).length - 1)) ≤ v := by
  have hpoint : 0 < pointAfter (v / baseUnitsPerBoing) := by
    rw [pointAfter]
    split
    next => omega
    next => exact Nat.one_pos
  constructor
  · rw [shownUnit, if_neg (not_le.mpr h6), ← pow_succ']
    exact pow_dvd_pow 10 (by omega)
  · have hlen := mt (length_decimal_le_iff (n := v / baseUnitsPerBoing)
      (k := (decimal (v / baseUnitsPerBoing)).length - 1) (by omega)).mpr (by omega)
    calc 10 ^ (18 + ((decimal (v / baseUnitsPerBoing)).length - 1))
        = 10 ^ ((decimal (v / baseUnitsPerBoing)).length - 1) * baseUnitsPerBoing := by
          rw [pow_add, Nat.mul_comm, baseUnitsPerBoing_eq]
      _ ≤ v / baseUnitsPerBoing * baseUnitsPerBoing :=
          Nat.mul_le_mul_right _ (not_lt.mp hlen)
      _ ≤ v := Nat.div_mul_le_self _ _

theorem shownUnit_of_le (h6 : (decimal (v / baseUnitsPerBoing)).length ≤ 6) :
    shownUnit v = 10 ^ 14 := if_pos h6

theorem shownUnit_pos (v : ℕ) : 0 < shownUnit v := by
  rw [shownUnit]
  split <;> exact Nat.pow_pos (by omega)

/-- **From 0.0009 BOING on** an amount is at least nine units. -/
theorem nine_mul_shownUnit_le (h : 9 * 10 ^ 14 ≤ v) : 9 * shownUnit v ≤ v := by
  by_cases h6 : (decimal (v / baseUnitsPerBoing)).length ≤ 6
  · rwa [shownUnit_of_le h6]
  · obtain ⟨hdvd, hle⟩ := shownUnit_of_lt (not_le.mp h6)
    have hten : 10 * shownUnit v ≤ v := (Nat.le_of_dvd (Nat.pow_pos (by omega)) hdvd).trans hle
    omega

/-- **Larger amounts are not shown as smaller ones.** -/
theorem truncate_shownUnit_mono {w : ℕ} (h : v ≤ w) :
    truncate (shownUnit v) v ≤ truncate (shownUnit w) w := by
  have hdiv : v / baseUnitsPerBoing ≤ w / baseUnitsPerBoing := Nat.div_le_div_right h
  have hlen : (decimal (v / baseUnitsPerBoing)).length ≤ (decimal (w / baseUnitsPerBoing)).length := by
    have hpos : 0 < (decimal (w / baseUnitsPerBoing)).length :=
      List.length_pos_iff.mpr (isDigits_decimal _).1
    exact (length_decimal_le_iff hpos).mpr
      (hdiv.trans_lt ((length_decimal_le_iff hpos).mp le_rfl))
  by_cases h6 : (decimal (w / baseUnitsPerBoing)).length ≤ 6
  · rw [shownUnit_of_le h6, shownUnit_of_le (hlen.trans h6)]
    exact truncate_mono _ h
  obtain ⟨hdvd, hle⟩ := shownUnit_of_lt (not_le.mp h6)
  rcases hlen.lt_or_eq with hlt | heq
  -- the first digit of the larger amount is a bound between the two
  · have hbelow : v ≤ 10 ^ (18 + ((decimal (w / baseUnitsPerBoing)).length - 1)) := by
      have hwhole := (length_decimal_le_iff (n := v / baseUnitsPerBoing)
        (k := (decimal (w / baseUnitsPerBoing)).length - 1) (by omega)).mp (by omega)
      rw [Nat.div_lt_iff_lt_mul (by decide), baseUnitsPerBoing_eq, ← pow_add, Nat.add_comm] at hwhole
      exact hwhole.le
    calc truncate (shownUnit v) v ≤ v := truncate_le _ v
      _ ≤ 10 ^ (18 + ((decimal (w / baseUnitsPerBoing)).length - 1)) := hbelow
      _ ≤ truncate (shownUnit w) w := le_truncate ((Dvd.intro_left 10 rfl).trans hdvd) hle
  · have hunit : shownUnit v = shownUnit w := by
      rw [shownUnit, shownUnit, pointAfter, pointAfter, heq]
    rw [hunit]
    exact truncate_mono _ h

theorem truncate_shownUnit_eq_zero_iff (h : ¬ Tiny v 4) :
    truncate (shownUnit v) v = 0 ↔ v = 0 := by
  constructor
  · intro hzero
    by_contra hv
    have hle : 10 ^ 14 ≤ v := by
      rw [tiny_iff] at h
      omega
    have hunit : truncate (shownUnit (10 ^ 14)) (10 ^ 14) = 10 ^ 14 := by decide +kernel
    have hmono := truncate_shownUnit_mono hle
    omega
  · rintro rfl
    rw [truncate, Nat.zero_div, Nat.zero_mul]

theorem short_compactBoing_tiny_iff (v : ℕ) :
    (compactBoing v).short = "<0.0001" ↔ 0 < v ∧ v < 10 ^ 14 := by
  rw [← tiny_iff]
  constructor
  · intro hshort
    by_contra h
    have hnone : denoted "<0.0001" = none := by rfl
    have hsome := denoted_compactBoing h
    rw [hshort, hnone] at hsome
    cases hsome
  · intro h
    have hwhole : (compactBoing v).short = formatBoingBase v 4 := by
      rw [compactBoing, h.2.2]
      rfl
    rw [hwhole, formatBoingBase]
    exact if_pos h

/-- An amount in BOING. -/
def boing (v : ℕ) : ℚ := (v : ℚ) / 10 ^ 18

theorem boing_le_iff {w : ℕ} : boing v ≤ boing w ↔ v ≤ w := by
  rw [boing, boing, div_le_div_iff_of_pos_right (by norm_num), Nat.cast_le]

/-- **A short amount never overstates**: it loses less than a tenth from 0.0009 BOING on and less
than 0.0001 BOING below, is zero for zero only, and larger amounts are not shown as smaller
ones. -/
theorem compactBoing_never_overstates (v : ℕ) :
    ((compactBoing v).short = "<0.0001" ↔ 0 < v ∧ v < 10 ^ 14) ∧
    (¬ (0 < v ∧ v < 10 ^ 14) → ∃ q, denoted (compactBoing v).short = some q ∧
      q ≤ boing v ∧ (q = 0 ↔ v = 0) ∧
      (9 * 10 ^ 14 ≤ v → 9 / 10 * boing v < q) ∧
      (v < 9 * 10 ^ 14 → boing v - q < 1 / 10 ^ 4) ∧
      ∀ w, v ≤ w → ¬ (0 < w ∧ w < 10 ^ 14) →
        ∃ r, denoted (compactBoing w).short = some r ∧ q ≤ r) := by
  refine ⟨short_compactBoing_tiny_iff v, fun hshown => ?_⟩
  rw [← tiny_iff] at hshown
  refine ⟨boing (truncate (shownUnit v) v), denoted_compactBoing hshown,
    boing_le_iff.mpr (truncate_le _ v), ?_, ?_, ?_, ?_⟩
  · rw [← truncate_shownUnit_eq_zero_iff hshown, boing, div_eq_zero_iff,
      or_iff_left (by norm_num), Nat.cast_eq_zero]
  · intro hle
    have hcut := mul_lt_mul_truncate (shownUnit_pos v) (by omega) (nine_mul_shownUnit_le hle)
    have hcast : (9 : ℚ) * v < 10 * (truncate (shownUnit v) v : ℕ) := by exact_mod_cast hcut
    rw [boing, boing, ← mul_div_assoc, div_lt_div_iff_of_pos_right (by norm_num)]
    linarith
  · intro hlt
    have hunit : shownUnit v = 10 ^ 14 := by
      refine shownUnit_of_le ((length_decimal_le_iff (by omega)).mpr ?_)
      rw [baseUnitsPerBoing]
      omega
    have hcut := lt_truncate_add (shownUnit_pos v) v
    rw [hunit] at hcut
    have hcast : (v : ℚ) < (truncate (10 ^ 14) v : ℕ) + 10 ^ 14 := by exact_mod_cast hcut
    rw [hunit, boing, boing, ← sub_div, div_lt_div_iff₀ (by norm_num) (by norm_num)]
    linarith
  · intro w hle hw
    rw [← tiny_iff] at hw
    exact ⟨boing (truncate (shownUnit w) w), denoted_compactBoing hw,
      boing_le_iff.mpr (truncate_shownUnit_mono hle)⟩

end

/-- **0.00019 BOING are shown as 0.0001**, which is little more than a half. -/
theorem compactBoing_loses_nearly_half :
    denoted (compactBoing 190000000000000).short = some (1 / 10000) ∧
      ¬ 9 / 10 * boing 190000000000000 < 1 / 10000 := by
  constructor
  · decide +kernel
  · rw [boing]
    norm_num

end BoingObserver.NativeUnit
