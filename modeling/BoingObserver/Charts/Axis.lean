import BoingObserver.Js.Fixed
import BoingObserver.NativeUnit.Compact
import Mathlib.Data.Nat.Log

/-!
# Axis labels

`compactBoingAxis` of `chart-native.ts`, with exact division and rounding to nearest.
The zeros at the end of a label are trimmed also where the label has no point.

* `axisValue_eq`: what a label denotes.
* `compactBoingAxis_faithful_iff`: labels are faithful unless a whole number of units
  ends in a zero.
-/

namespace BoingObserver.Charts

open Js
open NativeUnit (denoted denoted_eq_some scale endsNumber_singleton)

/-! ## Labels -/

def axisSuffix : List (ℕ × Text) :=
  [(10 ^ 12, "T"), (10 ^ 9, "B"), (10 ^ 6, "M"), (10 ^ 3, "K")]

/-- `s.replace(/\.?0+$/, "")` -/
def trimFixed (s : Text) : Text :=
  let t := trimZeros s
  if t = s then s
  else if t.getLast? = some '.' then t.dropLast
  else t

def trimNum (nt : NumberText) (q : ℚ) : Text :=
  let s :=
    if 100 ≤ |q| then toFixed nt 0 q
    else if 10 ≤ |q| then toFixed nt 1 q
    else toFixed nt 2 q
  trimFixed s

/-- The double that `0.01` is. -/
def oneHundredth : ℚ := 5764607523034235 / 2 ^ 59

/-- Compact axis tick. -/
def compactBoingAxis (nt : NumberText) (v : Value) : Text :=
  match nt.number v with
  | .finite q =>
    if q = 0 then "0"
    else
      match axisSuffix.find? fun p => decide ((p.1 : ℚ) ≤ |q|) with
      | some (d, s) => trimNum nt (q / d) ++ s
      | none => if |q| < oneHundredth then toExponential q else trimNum nt q
  | _ => []

example : compactBoingAxis integersOnly (.number (.ofNat 2000000)) = "2M" := by decide +kernel

/-! ## Trimming -/

theorem trimFixed_of_digits {s : Text} (h : ∀ c ∈ s, c.isDigit = true) :
    trimFixed s = trimZeros s := by
  have hpoint : (trimZeros s).getLast? ≠ some '.' := by
    intro hlast
    have hmem := mem_of_mem_trimZeros (List.mem_of_getLast? hlast)
    exact absurd (h _ hmem) (by decide)
  rw [trimFixed, if_neg hpoint]
  split
  next heq => exact heq.symm
  next => rfl

theorem trimFixed_point {int frac : Text} (hfrac : ∀ c ∈ frac, c.isDigit = true)
    (hne : frac ≠ []) : trimFixed (int ++ '.' :: frac) = fixedText int (trimZeros frac) := by
  have htrim : trimZeros (int ++ '.' :: frac) = int ++ '.' :: trimZeros frac :=
    trimZeros_append_cons (by decide) int frac
  rw [trimFixed, htrim, fixedText]
  by_cases hnil : trimZeros frac = []
  · have hshort : int ++ '.' :: trimZeros frac ≠ int ++ '.' :: frac := by
      rw [hnil]
      exact fun heq => hne (List.cons.inj (List.append_cancel_left heq)).2.symm
    have hlast : (int ++ ['.']).getLast? = some '.' := List.getLast?_concat
    rw [if_neg hshort, hnil, if_pos hlast, if_pos rfl, List.dropLast_concat]
  · have hlast : (int ++ '.' :: trimZeros frac).getLast? ≠ some '.' := by
      rw [List.getLast?_append_of_ne_nil _ (List.cons_ne_nil _ _), List.getLast?_cons_of_ne_nil hnil]
      intro hpoint
      have hmem := mem_of_mem_trimZeros (List.mem_of_getLast? hpoint)
      exact absurd (hfrac _ hmem) (by decide)
    rw [if_neg hlast, if_neg hnil]
    split
    next heq => exact heq.symm
    next => rfl

theorem decimal_concat {m : ℕ} (h : 10 ≤ m) :
    decimal m = decimal (m / 10) ++ [Nat.digitChar (m % 10)] :=
  Nat.toDigits_of_base_le (by omega) h

/-- **The zeros at the end of a number** that are trimmed. -/
theorem numeral_trimZeros_decimal {m : ℕ} (h : 10 ≤ m) :
    (m % 10 ≠ 0 → numeral 10 (trimZeros (decimal m)) = m) ∧
      (m % 10 = 0 → 10 * numeral 10 (trimZeros (decimal m)) ≤ m) := by
  constructor
  · intro hmod
    have hdigit : Nat.digitChar (m % 10) ≠ '0' := by
      have hall : ∀ d < 10, d ≠ 0 → Nat.digitChar d ≠ '0' := by decide
      exact hall _ (Nat.mod_lt m (by omega)) hmod
    have htrim : trimZeros (decimal m) = decimal m := by
      rw [decimal_concat h, trimZeros_of_ne hdigit]
    rw [htrim, numeral_decimal]
  · intro hmod
    have htrim : trimZeros (decimal m) = trimZeros (decimal (m / 10)) := by
      rw [decimal_concat h, hmod]
      exact trimZeros_of_eq rfl
    obtain ⟨k, hk⟩ := trimZeros_append (decimal (m / 10))
    have hvalue : m / 10 = numeral 10 (trimZeros (decimal m)) * 10 ^ k := by
      have hread := congrArg (numeral 10) hk
      rwa [numeral_decimal, numeral_append, numeral_replicate_zero, List.length_replicate,
        Nat.add_zero, ← htrim] at hread
    have hle : numeral 10 (trimZeros (decimal m)) ≤ m / 10 := by
      rw [hvalue]
      exact Nat.le_mul_of_pos_right _ (Nat.pow_pos (by omega))
    omega

/-! ## Units -/

/-- The largest unit that a number reaches. -/
def axisUnit (n : ℕ) : ℕ :=
  ((axisSuffix.find? fun p => decide (p.1 ≤ n)).map Prod.fst).getD 1

def axisDecimals (n : ℕ) : ℕ :=
  if 100 * axisUnit n ≤ n then 0 else if 10 * axisUnit n ≤ n then 1 else 2

def axisStep (n : ℕ) : ℚ := axisUnit n / 10 ^ axisDecimals n

theorem axisUnit_eq (n : ℕ) : axisUnit n =
    if 10 ^ 12 ≤ n then 10 ^ 12 else if 10 ^ 9 ≤ n then 10 ^ 9
    else if 10 ^ 6 ≤ n then 10 ^ 6 else if 10 ^ 3 ≤ n then 10 ^ 3 else 1 := by
  rw [axisUnit, axisSuffix]
  by_cases h12 : 10 ^ 12 ≤ n
  · rw [if_pos h12, List.find?_cons_of_pos (by simpa using h12)]
    rfl
  rw [if_neg h12, List.find?_cons_of_neg (by simpa using h12)]
  by_cases h9 : 10 ^ 9 ≤ n
  · rw [if_pos h9, List.find?_cons_of_pos (by simpa using h9)]
    rfl
  rw [if_neg h9, List.find?_cons_of_neg (by simpa using h9)]
  by_cases h6 : 10 ^ 6 ≤ n
  · rw [if_pos h6, List.find?_cons_of_pos (by simpa using h6)]
    rfl
  rw [if_neg h6, List.find?_cons_of_neg (by simpa using h6)]
  by_cases h3 : 10 ^ 3 ≤ n
  · rw [if_pos h3, List.find?_cons_of_pos (by simpa using h3)]
    rfl
  rw [if_neg h3, List.find?_cons_of_neg (by simpa using h3)]
  rfl

theorem axisUnit_pos (n : ℕ) : 0 < axisUnit n := by
  rw [axisUnit_eq]
  split_ifs <;> norm_num

theorem axisUnit_log {n : ℕ} (h : n ≠ 0) : ∃ k ≤ 4, axisUnit n = 10 ^ (3 * k) ∧
    3 * k ≤ Nat.log 10 n ∧ (k = 4 ∨ Nat.log 10 n < 3 * k + 3) := by
  have hpow (j : ℕ) : 10 ^ j ≤ n ↔ j ≤ Nat.log 10 n := (Nat.le_log_iff_pow_le (by omega) h).symm
  rw [axisUnit_eq]
  simp only [hpow]
  split_ifs with h12 h9 h6 h3
  · exact ⟨4, le_rfl, rfl, h12, Or.inl rfl⟩
  · exact ⟨3, by omega, rfl, h9, Or.inr (by omega)⟩
  · exact ⟨2, by omega, rfl, h6, Or.inr (by omega)⟩
  · exact ⟨1, by omega, rfl, h3, Or.inr (by omega)⟩
  · exact ⟨0, by omega, rfl, by omega, Or.inr (by omega)⟩

/-- **Labels have three digits**, up to 10^15. -/
theorem axisStep_eq {n : ℕ} (h : n ≠ 0) :
    axisStep n * 100 = 10 ^ min (Nat.log 10 n) 14 := by
  have hpow (j : ℕ) : 10 ^ j ≤ n ↔ j ≤ Nat.log 10 n := (Nat.le_log_iff_pow_le (by omega) h).symm
  obtain ⟨k, hk, hunit, hle, hlt⟩ := axisUnit_log h
  have h100 : 100 * axisUnit n ≤ n ↔ 3 * k + 2 ≤ Nat.log 10 n := by
    rw [hunit, ← hpow, pow_succ, pow_succ, Nat.mul_comm, Nat.mul_assoc]
  have h10 : 10 * axisUnit n ≤ n ↔ 3 * k + 1 ≤ Nat.log 10 n := by
    rw [hunit, ← hpow, pow_succ, Nat.mul_comm]
  have hexp {j : ℕ} (hj : min (Nat.log 10 n) 14 = 3 * k + j) :
      (10 : ℚ) ^ min (Nat.log 10 n) 14 = axisUnit n * 10 ^ j := by
    rw [hj, pow_add, hunit, Nat.cast_pow, Nat.cast_ofNat]
  rw [axisStep, axisDecimals]
  split_ifs with h2 h1
  · rw [hexp (j := 2) (by omega)]
    ring
  · rw [hexp (j := 1) (by omega)]
    ring
  · rw [hexp (j := 0) (by omega)]
    ring

theorem axisStep_pos {n : ℕ} : 0 < axisStep n :=
  div_pos (Nat.cast_pos.mpr (axisUnit_pos n)) (by positivity)

/-- **A number is at least a hundred steps.** -/
theorem axisStep_le {n : ℕ} (h : n ≠ 0) : axisStep n * 100 ≤ n := by
  rw [axisStep_eq h]
  calc (10 : ℚ) ^ min (Nat.log 10 n) 14 ≤ 10 ^ Nat.log 10 n :=
        pow_le_pow_right₀ (by norm_num) (min_le_left _ _)
    _ ≤ n := by exact_mod_cast Nat.pow_log_le_self 10 h

/-- **Rounding to steps keeps the order**, also where the step grows. -/
theorem roundNearest_axisStep_mono {n m : ℕ} (h : n ≤ m) :
    roundNearest (axisStep n) n ≤ roundNearest (axisStep m) m := by
  have hcast : (n : ℚ) ≤ m := Nat.cast_le.mpr h
  by_cases hn : n = 0
  · have hmono := roundNearest_mono (axisStep_pos (n := m)) hcast
    rw [hn, Nat.cast_zero, roundNearest_zero] at hmono ⊢
    exact hmono
  have hm : m ≠ 0 := by omega
  have hlog : Nat.log 10 n ≤ Nat.log 10 m := Nat.log_mono_right h
  have hstep {k : ℕ} (hk : k ≠ 0) : axisStep k = 10 ^ min (Nat.log 10 k) 14 / 100 := by
    rw [← axisStep_eq hk, mul_div_cancel_right₀ _ (by norm_num)]
  by_cases heq : min (Nat.log 10 n) 14 = min (Nat.log 10 m) 14
  · have hsame : axisStep n = axisStep m := by rw [hstep hn, hstep hm, heq]
    rw [hsame]
    exact roundNearest_mono axisStep_pos hcast
  -- the power of ten at which the step grows lies between the two
  · obtain ⟨j, hj⟩ : ∃ j, min (Nat.log 10 m) 14 = min (Nat.log 10 n) 14 + j :=
      Nat.exists_eq_add_of_le (by omega)
    have hbelow : (n : ℚ) ≤ 10 ^ min (Nat.log 10 m) 14 := by
      have hlt := Nat.lt_pow_succ_log_self (b := 10) (by omega) n
      have hpow : 10 ^ (Nat.log 10 n).succ ≤ 10 ^ min (Nat.log 10 m) 14 :=
        Nat.pow_le_pow_right (by omega) (by omega)
      exact_mod_cast (hlt.trans_le hpow).le
    have habove : (10 : ℚ) ^ min (Nat.log 10 m) 14 ≤ m := by
      rw [← axisStep_eq hm]
      exact axisStep_le hm
    have hn' : (10 : ℚ) ^ min (Nat.log 10 m) 14 = ((100 * 10 ^ j : ℤ) : ℚ) * axisStep n := by
      rw [hstep hn, hj, pow_add]
      push_cast
      ring
    have hm' : (10 : ℚ) ^ min (Nat.log 10 m) 14 = ((100 : ℤ) : ℚ) * axisStep m := by
      rw [← axisStep_eq hm]
      push_cast
      ring
    calc roundNearest (axisStep n) n
        ≤ roundNearest (axisStep n) (10 ^ min (Nat.log 10 m) 14) := roundNearest_mono axisStep_pos hbelow
      _ = 10 ^ min (Nat.log 10 m) 14 := by rw [hn', roundNearest_mul axisStep_pos]
      _ = roundNearest (axisStep m) (10 ^ min (Nat.log 10 m) 14) := by
          rw [hm', roundNearest_mul axisStep_pos]
      _ ≤ roundNearest (axisStep m) m := roundNearest_mono axisStep_pos habove

/-! ## What a label denotes -/

/-- The number that the label of `n` BOING denotes. -/
def axisValue (nt : NumberText) (n : ℕ) : Option ℚ :=
  denoted (compactBoingAxis nt (.number (.ofNat n)))

/-- A whole number of units, of three digits or more, that ends in a zero when it is rounded. -/
def EndsInZero (n : ℕ) : Prop :=
  100 * axisUnit n ≤ n ∧ (2 * n + axisUnit n) % (20 * axisUnit n) < 2 * axisUnit n

instance (n : ℕ) : Decidable (EndsInZero n) := inferInstanceAs (Decidable (_ ∧ _))

example : EndsInZero 100 ∧ ¬ EndsInZero 1500 := by decide

theorem axisSuffix_spec {p : ℕ × Text} (h : p ∈ axisSuffix) :
    EndsNumber p.2 ∧ ',' ∉ p.2 ∧ scale p.2 = some p.1 := by
  simp only [axisSuffix, List.mem_cons, List.not_mem_nil, or_false] at h
  obtain rfl | rfl | rfl | rfl := h
  · exact ⟨endsNumber_singleton (by decide), by decide, rfl⟩
  · exact ⟨endsNumber_singleton (by decide), by decide, rfl⟩
  · exact ⟨endsNumber_singleton (by decide), by decide, rfl⟩
  · exact ⟨endsNumber_singleton (by decide), by decide, rfl⟩

theorem compactBoingAxis_ofNat (nt : NumberText) {n : ℕ} (h : n ≠ 0) :
    ∃ suffix, compactBoingAxis nt (.number (.ofNat n)) = trimNum nt (n / axisUnit n) ++ suffix ∧
      EndsNumber suffix ∧ ',' ∉ suffix ∧ scale suffix = some (axisUnit n) := by
  have hne : (n : ℚ) ≠ 0 := Nat.cast_ne_zero.mpr h
  have hfind : (axisSuffix.find? fun p => decide ((p.1 : ℚ) ≤ |(n : ℚ)|)) =
      axisSuffix.find? fun p => decide (p.1 ≤ n) := by
    congr 1
    funext p
    rw [Nat.abs_cast, decide_eq_decide, Nat.cast_le]
  rw [Number.ofNat, compactBoingAxis, NumberText.number, axisUnit]
  dsimp only
  rw [if_neg hne, hfind]
  cases hp : axisSuffix.find? fun p => decide (p.1 ≤ n) with
  | some p =>
    obtain ⟨hend, hcomma, hscale⟩ := axisSuffix_spec (List.mem_of_find?_eq_some hp)
    exact ⟨p.2, rfl, hend, hcomma, hscale⟩
  | none =>
    have hone : ¬ |(n : ℚ)| < oneHundredth := by
      have hle : (1 : ℚ) ≤ n := Nat.one_le_cast.mpr (Nat.pos_of_ne_zero h)
      rw [Nat.abs_cast, oneHundredth, not_lt]
      exact le_trans (by norm_num) hle
    refine ⟨[], ?_, endsNumber_nil, List.not_mem_nil, rfl⟩
    dsimp only
    rw [if_neg hone, Option.map_none, Option.getD_none, Nat.cast_one, div_one, List.append_nil]

/-- **What is left of a number** after the trimming. -/
theorem trimNum_eq (nt : NumberText) {x : ℚ} (h : 0 ≤ x) (hlt : x < 10 ^ 21) : trimNum nt x =
    if 100 ≤ x then trimZeros (decimal (fixedDigits 0 x))
    else if 10 ≤ x then exactText 1 (fixedDigits 1 x)
    else exactText 2 (fixedDigits 2 x) := by
  have hfixed {f : ℕ} (hf : f ≠ 0) :
      trimFixed (toFixed nt f x) = exactText f (fixedDigits f x) := by
    have hrest : fixedDigits f x % 10 ^ f < 10 ^ f := Nat.mod_lt _ (Nat.pow_pos (by omega))
    have hne : padDecimal f (fixedDigits f x % 10 ^ f) ≠ [] := by
      refine List.ne_nil_of_length_pos ?_
      rw [length_padDecimal (Nat.pos_of_ne_zero hf) hrest]
      exact Nat.pos_of_ne_zero hf
    rw [toFixed_eq nt h hlt, if_neg hf, trimFixed_point (fun c hc => isDigit_padDecimal hc) hne,
      exactText, if_neg hf]
  rw [trimNum, abs_of_nonneg h]
  split_ifs
  · rw [toFixed_eq nt h hlt, if_pos rfl, trimFixed_of_digits (isDigits_decimal _).2]
  · exact hfixed (by decide)
  · exact hfixed (by decide)

section

variable {suffix : Text} {u : ℕ} (hend : EndsNumber suffix) (hcomma : ',' ∉ suffix)
  (hscale : scale suffix = some u)
include hend hcomma hscale

theorem denoted_exactText (f m : ℕ) :
    denoted (exactText f m ++ suffix) = some ((m : ℚ) / 10 ^ f * u) := by
  have hungroup : ungroup (exactText f m ++ suffix) = exactText f m ++ suffix := by
    rw [ungroup_append, ungroup_exactText, ungroup_eq_self hcomma]
  rw [denoted_eq_some hungroup (isDigits_decimal _) (isDigit_fraction f m) hend hscale,
    fixedValue_exact]

theorem denoted_digits {s : Text} (hs : IsDigits s) :
    denoted (s ++ suffix) = some ((numeral 10 s : ℚ) * u) := by
  have hungroup : ungroup (s ++ suffix) = fixedText s [] ++ suffix := by
    rw [ungroup_append, ungroup_eq_self (comma_not_mem hs.2), ungroup_eq_self hcomma]
    rfl
  rw [denoted_eq_some hungroup hs (fun c hc => absurd hc List.not_mem_nil) hend hscale,
    fixedValue_nil]

end

theorem fixedDigits_zero_div (n : ℕ) {u : ℕ} (hu : 0 < u) :
    fixedDigits 0 ((n : ℚ) / u) = (2 * n + u) / (2 * u) := by
  have hu' : (u : ℚ) ≠ 0 := Nat.cast_ne_zero.mpr hu.ne'
  have hquot : (n : ℚ) / u * 10 ^ 0 + 1 / 2 = ((2 * n + u : ℕ) : ℚ) / ((2 * u : ℕ) : ℚ) := by
    push_cast
    field_simp
  rw [fixedDigits, hquot, Rat.floor_natCast_div_natCast]
  rfl

theorem endsInZero_iff (n : ℕ) : EndsInZero n ↔
    100 * axisUnit n ≤ n ∧ fixedDigits 0 ((n : ℚ) / axisUnit n) % 10 = 0 := by
  have hu := axisUnit_pos n
  rw [EndsInZero, fixedDigits_zero_div n hu, ← Nat.mod_mul_right_div_self,
    Nat.div_eq_zero_iff_lt (by omega)]
  ring_nf

section

variable (nt : NumberText) {n : ℕ}

theorem fixedDigits_mul (f : ℕ) : (fixedDigits f ((n : ℚ) / axisUnit n) : ℚ) / 10 ^ f * axisUnit n =
    roundNearest (axisUnit n / 10 ^ f) n := by
  have hu : (axisUnit n : ℚ) ≠ 0 := Nat.cast_ne_zero.mpr (axisUnit_pos n).ne'
  rw [fixedDigits_div (by positivity), ← roundNearest_scale hu, div_mul_cancel₀ _ hu, one_div_mul_eq_div]

/-- **What a label denotes**: the number rounded to its step; less than a tenth of it where a
zero at the end is trimmed. -/
theorem axisValue_eq (hn : n ≠ 0) (hlt : n < 2 ^ 53) :
    (¬ EndsInZero n → axisValue nt n = some (roundNearest (axisStep n) n)) ∧
    (EndsInZero n → ∃ q, axisValue nt n = some q ∧ 10 * q ≤ roundNearest (axisStep n) n) := by
  obtain ⟨suffix, hlabel, hend, hcomma, hscale⟩ := compactBoingAxis_ofNat nt hn
  have hu : (0 : ℚ) < axisUnit n := Nat.cast_pos.mpr (axisUnit_pos n)
  have hle (k : ℕ) : (k : ℚ) ≤ n / axisUnit n ↔ k * axisUnit n ≤ n := by
    rw [le_div_iff₀ hu]
    exact_mod_cast Iff.rfl
  have h100 : (100 : ℚ) ≤ n / axisUnit n ↔ 100 * axisUnit n ≤ n := hle 100
  have h10 : (10 : ℚ) ≤ n / axisUnit n ↔ 10 * axisUnit n ≤ n := hle 10
  have hbound : (n : ℚ) / axisUnit n < 10 ^ 21 := by
    rw [← not_le, show (10 : ℚ) ^ 21 = ((10 ^ 21 : ℕ) : ℚ) by norm_num, hle]
    have := Nat.mul_le_mul_left (10 ^ 21) (axisUnit_pos n)
    omega
  rw [axisValue, hlabel, trimNum_eq nt (by positivity) hbound, endsInZero_iff]
  by_cases hbig : 100 * axisUnit n ≤ n
  · have hstep : roundNearest (axisStep n) n = fixedDigits 0 ((n : ℚ) / axisUnit n) * axisUnit n := by
      rw [axisStep, axisDecimals, if_pos hbig, ← fixedDigits_mul, pow_zero, div_one]
    have hdigits : 100 ≤ fixedDigits 0 ((n : ℚ) / axisUnit n) := by
      rw [fixedDigits_zero_div n (axisUnit_pos n), Nat.le_div_iff_mul_le (by have := axisUnit_pos n; omega)]
      omega
    have hnumeral := numeral_trimZeros_decimal (m := fixedDigits 0 ((n : ℚ) / axisUnit n)) (by omega)
    have htext : IsDigits (trimZeros (decimal (fixedDigits 0 ((n : ℚ) / axisUnit n)))) := by
      refine ⟨?_, fun c hc => (isDigits_decimal _).2 c (mem_of_mem_trimZeros hc)⟩
      rw [ne_eq, trimZeros_eq_nil_iff (isDigits_decimal _).2, numeral_decimal]
      omega
    rw [if_pos (h100.mpr hbig), denoted_digits hend hcomma hscale htext, hstep]
    generalize fixedDigits 0 ((n : ℚ) / axisUnit n) = m at hnumeral
    constructor
    · intro hno
      rw [hnumeral.1 fun hzero => hno ⟨hbig, hzero⟩]
    · rintro ⟨-, hzero⟩
      refine ⟨_, rfl, ?_⟩
      have hle : 10 * (numeral 10 (trimZeros (decimal m)) : ℚ) ≤ m := by
        exact_mod_cast hnumeral.2 hzero
      calc 10 * ((numeral 10 (trimZeros (decimal m)) : ℚ) * axisUnit n)
          = 10 * (numeral 10 (trimZeros (decimal m)) : ℚ) * axisUnit n := (mul_assoc _ _ _).symm
        _ ≤ m * axisUnit n := mul_le_mul_of_nonneg_right hle hu.le
  · refine ⟨fun _ => ?_, fun hzero => absurd hzero.1 hbig⟩
    rw [if_neg (h100.not.mpr hbig), axisStep, axisDecimals, if_neg hbig]
    by_cases hmid : 10 * axisUnit n ≤ n
    · rw [if_pos (h10.mpr hmid), if_pos hmid, denoted_exactText hend hcomma hscale, fixedDigits_mul]
    · rw [if_neg (h10.not.mpr hmid), if_neg hmid, denoted_exactText hend hcomma hscale,
        fixedDigits_mul]

end

/-! ## Faithful labels -/

/-- A label denotes its number up to one percent. -/
def Accurate (n : ℕ) (q : ℚ) : Prop := |q - n| ≤ n / 100

theorem roundNearest_axisStep_bounds (n : ℕ) : |roundNearest (axisStep n) n - n| ≤ (n : ℚ) / 200 := by
  by_cases hn : n = 0
  · rw [hn, Nat.cast_zero, roundNearest_zero, sub_zero, abs_zero, zero_div]
  · have hround := abs_roundNearest_sub_le (q := n) (axisStep_pos (n := n))
    have hstep := axisStep_le hn
    linarith

section

variable (nt : NumberText) {n m : ℕ}

theorem axisValue_zero : axisValue nt 0 = some 0 := by
  have htext : compactBoingAxis nt (.number (.ofNat 0)) = "0" := by
    rw [Number.ofNat, compactBoingAxis, NumberText.number]
    exact if_pos Nat.cast_zero
  rw [axisValue, htext]
  decide +kernel

theorem axisValue_of_not (hlt : n < 2 ^ 53) (h : ¬ EndsInZero n) :
    axisValue nt n = some (roundNearest (axisStep n) n) := by
  by_cases hn : n = 0
  · rw [hn, Nat.cast_zero, roundNearest_zero, axisValue_zero]
  · exact (axisValue_eq nt hn hlt).1 h

/-- **A label is accurate** iff no zero at its end is trimmed. -/
theorem accurate_iff (hlt : n < 2 ^ 53) :
    (∃ q, axisValue nt n = some q ∧ Accurate n q) ↔ ¬ EndsInZero n := by
  have hbounds := roundNearest_axisStep_bounds n
  have hnonneg : (0 : ℚ) ≤ n := Nat.cast_nonneg n
  constructor
  · rintro ⟨q, hq, haccurate⟩ hzero
    have hn : n ≠ 0 := by
      have hle := (axisUnit_pos n).trans_le ((Nat.le_mul_of_pos_left _ (by omega)).trans hzero.1)
      omega
    obtain ⟨q', hq', hten⟩ := (axisValue_eq nt hn hlt).2 hzero
    obtain rfl := Option.some.inj (hq.symm.trans hq')
    have hlow := (abs_le.mp haccurate).1
    have hhigh := (abs_le.mp hbounds).2
    have hpos : (0 : ℚ) < n := Nat.cast_pos.mpr (Nat.pos_of_ne_zero hn)
    linarith
  · intro hno
    exact ⟨_, axisValue_of_not nt hlt hno, hbounds.trans (by linarith)⟩

/-- **Two labels are faithful**, each up to one percent and in order, iff no zero at the end of
one is trimmed. -/
theorem compactBoingAxis_faithful_iff (h : n ≤ m) (hlt : m < 2 ^ 53) :
    (∃ p q, axisValue nt n = some p ∧ axisValue nt m = some q ∧ Accurate n p ∧ Accurate m q ∧
      p ≤ q) ↔ ¬ EndsInZero n ∧ ¬ EndsInZero m := by
  have hn := h.trans_lt hlt
  constructor
  · rintro ⟨p, q, hp, hq, hpn, hqm, -⟩
    exact ⟨(accurate_iff nt hn).mp ⟨p, hp, hpn⟩, (accurate_iff nt hlt).mp ⟨q, hq, hqm⟩⟩
  · rintro ⟨hzero, hzero'⟩
    obtain ⟨p, hp, hpn⟩ := (accurate_iff nt hn).mpr hzero
    obtain ⟨q, hq, hqm⟩ := (accurate_iff nt hlt).mpr hzero'
    refine ⟨p, q, hp, hq, hpn, hqm, ?_⟩
    obtain rfl := Option.some.inj (hp.symm.trans (axisValue_of_not nt hn hzero))
    obtain rfl := Option.some.inj (hq.symm.trans (axisValue_of_not nt hlt hzero'))
    exact roundNearest_axisStep_mono h

end

theorem compactBoingAxis_faithful_thousands :
    (∃ p q, axisValue integersOnly 999 = some p ∧ axisValue integersOnly 1500 = some q ∧
      Accurate 999 p ∧ Accurate 1500 q ∧ p ≤ q) ↔ ¬ EndsInZero 999 ∧ ¬ EndsInZero 1500 :=
  compactBoingAxis_faithful_iff integersOnly (by decide) (by decide)

/-- **100 BOING are labelled 1**, and 99 BOING are labelled 99. -/
theorem compactBoingAxis_hundred :
    compactBoingAxis integersOnly (.number (.ofNat 100)) = "1" ∧
      axisValue integersOnly 100 = some 1 ∧ ¬ Accurate 100 1 ∧
      axisValue integersOnly 99 = some 99 := by
  refine ⟨by decide +kernel, by decide +kernel, ?_, by decide +kernel⟩
  rw [Accurate]
  norm_num

end BoingObserver.Charts
