import BoingObserver.Js.Coerce
import Mathlib.Algebra.Order.Ring.Rat
import Mathlib.Data.Int.Log
import Mathlib.Tactic.FieldSimp
import Mathlib.Tactic.Positivity

/-!
# Numbers from values

`Number(v)`: a text is read as a literal, whose exact value is rounded to a double; an
array is read as its text.

* `toDouble_natCast`, `toDouble_of_ge`: natural numbers below 2^53 are doubles, and those
  above it do not fall below it.
* `toNumber_eq_iff`: which values are read as a natural number below 2^53.
-/

namespace BoingObserver.Js

/-! ## Doubles -/

/-- The nearest integer; of two, the even one. -/
def roundHalfEven (q : ℚ) : ℤ :=
  if q - ⌊q⌋ < 1 / 2 then ⌊q⌋
  else if 1 / 2 < q - ⌊q⌋ then ⌊q⌋ + 1
  else if ⌊q⌋ % 2 = 0 then ⌊q⌋ else ⌊q⌋ + 1

/-- The distance of the doubles around `q`. -/
def ulp (q : ℚ) : ℚ := 2 ^ max (Int.log 2 |q| - 52) (-1074)

/-- The double nearest to `q`. -/
def toDouble (q : ℚ) : Number :=
  let r := roundHalfEven (q / ulp q) * ulp q
  if |r| < 2 ^ 1024 then .finite r else .infinite (decide (q < 0))

/-- `x < y` -/
def Number.lt : Number → Number → Bool
  | .finite a, .finite b => a < b
  | .finite _, .infinite negative => !negative
  | .infinite negative, .finite _ => negative
  | .infinite negative, .infinite negative' => negative && !negative'
  | _, _ => false

theorem Number.finite_lt_finite (a b : ℚ) :
    (Number.finite a).lt (.finite b) = decide (a < b) := rfl

theorem roundHalfEven_intCast (z : ℤ) : roundHalfEven z = z := by
  rw [roundHalfEven, Int.floor_intCast, sub_self, if_pos (by norm_num)]

/-- **Natural numbers below 2^53 are doubles.** -/
theorem toDouble_natCast {n : ℕ} (h : n < 2 ^ 53) : toDouble n = .ofNat n := by
  have hlog : Int.log 2 |(n : ℚ)| ≤ 52 := by
    rw [Nat.abs_cast, Int.log_natCast]
    have := Nat.log_lt_of_lt_pow' (b := 2) (by omega) h
    omega
  obtain ⟨k, hk⟩ : ∃ k : ℕ, max (Int.log 2 |(n : ℚ)| - 52) (-1074) = -k :=
    ⟨(-max (Int.log 2 |(n : ℚ)| - 52) (-1074)).toNat, by omega⟩
  have hulp : ulp n = 1 / 2 ^ k := by
    rw [ulp, hk, zpow_neg, zpow_natCast, one_div]
  have hdiv : (n : ℚ) / ulp n = ((n * 2 ^ k : ℤ) : ℚ) := by
    rw [hulp, div_div_eq_mul_div, div_one]
    push_cast
    ring
  have hround : roundHalfEven ((n : ℚ) / ulp n) * ulp n = n := by
    rw [hdiv, roundHalfEven_intCast, hulp]
    push_cast
    field_simp
  have hsmall : (n : ℚ) < 2 ^ 53 := by exact_mod_cast h
  have hlt : |(n : ℚ)| < 2 ^ 1024 := by
    rw [Nat.abs_cast]
    exact hsmall.trans_le (pow_le_pow_right₀ (by norm_num) (by decide))
  rw [toDouble, hround, if_pos hlt, Number.ofNat]

theorem floor_le_roundHalfEven (q : ℚ) : ⌊q⌋ ≤ roundHalfEven q := by
  rw [roundHalfEven]
  split_ifs <;> omega

theorem roundHalfEven_le (q : ℚ) : roundHalfEven q ≤ ⌊q⌋ + 1 := by
  rw [roundHalfEven]
  split_ifs <;> omega

section

variable {n k : ℕ} (hlog : Nat.log 2 n = 52 + k)

include hlog

/-- The last place of a number of `53 + k` binary digits. -/
theorem ulp_natCast : ulp n = 2 ^ k := by
  have hexp : ((52 + k : ℕ) : ℤ) - 52 = (k : ℕ) := by
    push_cast
    ring
  rw [ulp, Nat.abs_cast, Int.log_natCast, hlog, max_eq_left (by omega), hexp, zpow_natCast]

/-- In units of the last place the number has 53 binary digits. -/
theorem roundHalfEven_div_bounds (hn : n ≠ 0) :
    (2 : ℚ) ^ 52 ≤ roundHalfEven ((n : ℚ) / 2 ^ k) ∧
      (roundHalfEven ((n : ℚ) / 2 ^ k) : ℚ) ≤ 2 ^ 53 := by
  have hpos : (0 : ℚ) < 2 ^ k := by positivity
  have hlow : 2 ^ (52 + k) ≤ n := hlog ▸ Nat.pow_log_le_self 2 hn
  have hhigh : n < 2 ^ (52 + k + 1) := hlog ▸ Nat.lt_pow_succ_log_self (by omega) n
  have hfloor : (2 ^ 52 : ℤ) ≤ ⌊(n : ℚ) / 2 ^ k⌋ := by
    rw [Int.le_floor, le_div_iff₀ hpos]
    calc ((2 ^ 52 : ℤ) : ℚ) * 2 ^ k = ((2 ^ (52 + k) : ℕ) : ℚ) := by push_cast; ring
      _ ≤ n := Nat.cast_le.mpr hlow
  have hfloor' : ⌊(n : ℚ) / 2 ^ k⌋ < 2 ^ 53 := by
    rw [Int.floor_lt, div_lt_iff₀ hpos]
    calc (n : ℚ) < ((2 ^ (52 + k + 1) : ℕ) : ℚ) := Nat.cast_lt.mpr hhigh
      _ = ((2 ^ 53 : ℤ) : ℚ) * 2 ^ k := by push_cast; ring
  constructor
  · exact_mod_cast hfloor.trans (floor_le_roundHalfEven _)
  · exact_mod_cast (roundHalfEven_le _).trans (Int.add_one_le_iff.mpr hfloor')

end

/-- **Above 2^53** the double is not below 2^53. -/
theorem toDouble_of_ge {n : ℕ} (h : 2 ^ 53 ≤ n) (h64 : n < 2 ^ 64) :
    ∃ q, toDouble n = .finite q ∧ 2 ^ 53 ≤ q := by
  have hn : n ≠ 0 := by omega
  have hge : 53 ≤ Nat.log 2 n := Nat.le_log_of_pow_le (by omega) h
  have hlt : Nat.log 2 n < 64 := Nat.log_lt_of_lt_pow hn h64
  obtain ⟨k, hlog⟩ : ∃ k, Nat.log 2 n = 52 + (k + 1) := ⟨Nat.log 2 n - 53, by omega⟩
  obtain ⟨m, hm⟩ : ∃ m : ℚ, m = roundHalfEven ((n : ℚ) / 2 ^ (k + 1)) := ⟨_, rfl⟩
  obtain ⟨hlow, hhigh⟩ := roundHalfEven_div_bounds hlog hn
  rw [← hm] at hlow hhigh
  have hunit : (2 : ℚ) ≤ 2 ^ (k + 1) := le_self_pow₀ one_le_two (Nat.succ_ne_zero k)
  have hscale : (2 : ℚ) ^ (k + 1) ≤ 2 ^ 11 := pow_le_pow_right₀ one_le_two (by omega)
  have hq : 2 ^ 53 ≤ m * 2 ^ (k + 1) :=
    calc (2 : ℚ) ^ 53 = 2 ^ 52 * 2 := by norm_num
      _ ≤ m * 2 ^ (k + 1) := by gcongr
  have hfinite : |m * 2 ^ (k + 1)| < 2 ^ 1024 := by
    rw [abs_of_nonneg (le_trans (by positivity) hq)]
    calc m * 2 ^ (k + 1) ≤ 2 ^ 53 * 2 ^ 11 := by gcongr
      _ = 2 ^ 64 := by norm_num
      _ < 2 ^ 1024 := pow_lt_pow_right₀ one_lt_two (by omega)
  refine ⟨_, ?_, hq⟩
  rw [toDouble, ulp_natCast hlog, ← hm]
  exact if_pos hfinite

theorem toInt?_eq_natCast {x : Number} {n : ℕ} : x.toInt? = some (.ofNat n) ↔ x = .ofNat n := by
  cases x with
  | finite q =>
    rw [Number.toInt?, Number.ofNat, Number.finite.injEq]
    constructor
    · intro h
      obtain ⟨hden, hnum⟩ := Option.ite_none_right_eq_some.mp h
      rw [← Rat.num_div_den q, hden, Option.some.inj hnum]
      norm_num
    · rintro rfl
      rfl
  | nan => exact iff_of_false (fun h => by cases h) (fun h => by cases h)
  | infinite negative => exact iff_of_false (fun h => by cases h) (fun h => by cases h)

/-! ## Literals -/

/-- The exponent of a literal, with what is left of it empty. -/
def exponent (s : Text) : Option ℤ :=
  match s with
  | [] => some 0
  | c :: s =>
    if ¬ (c = 'e' ∨ c = 'E') then none
    else
      let digits := if s.head? = some '+' ∨ s.head? = some '-' then s.tail else s
      if ¬ IsDigits digits then none
      else some (if s.head? = some '-' then - (numeral 10 digits : ℤ) else numeral 10 digits)

def decimalLiteral (s : Text) : Option ℚ :=
  let int := s.takeWhile Char.isDigit
  let rest := s.dropWhile Char.isDigit
  let point : Bool := rest.head? = some '.'
  let frac := if point then rest.tail.takeWhile Char.isDigit else []
  let rest := if point then rest.tail.dropWhile Char.isDigit else rest
  if int = [] ∧ frac = [] then none
  else (exponent rest).map fun e : ℤ =>
    (numeral 10 (int ++ frac) : ℚ) / 10 ^ frac.length * 10 ^ e

/-- The digits of an integer literal in base `b`. -/
def radixLiteral (b : ℕ) (isDigit : Char → Bool) (s : Text) : Option ℚ :=
  if s ≠ [] ∧ s.all isDigit then some (numeral b s) else none

/-- The exact value of a literal, as `Number` reads texts. -/
def numericLiteral (s : Text) : Option Number :=
  match s with
  | '0' :: 'x' :: s => (radixLiteral 16 isAnyHexDigit s).map Number.finite
  | '0' :: 'X' :: s => (radixLiteral 16 isAnyHexDigit s).map Number.finite
  | '0' :: 'o' :: s => (radixLiteral 8 (fun c => '0' ≤ c && c ≤ '7') s).map Number.finite
  | '0' :: 'O' :: s => (radixLiteral 8 (fun c => '0' ≤ c && c ≤ '7') s).map Number.finite
  | '0' :: 'b' :: s => (radixLiteral 2 (fun c => c = '0' || c = '1') s).map Number.finite
  | '0' :: 'B' :: s => (radixLiteral 2 (fun c => c = '0' || c = '1') s).map Number.finite
  | s =>
    let negative : Bool := s.head? = some '-'
    let s := if s.head? = some '-' ∨ s.head? = some '+' then s.tail else s
    if s = "Infinity" then some (.infinite negative)
    else (decimalLiteral s).map fun q => .finite (if negative then -q else q)

/-! ## Conversion -/

/-- `Number(s)` of a text; a blank one is zero. -/
def stringToNumber (s : Text) : Number :=
  if trim s = [] then .finite 0
  else
    match numericLiteral (trim s) with
    | some (.finite q) => toDouble q
    | some x => x
    | none => .nan

/-- `Number(v)` -/
def toNumber (nt : NumberText) : Value → Number
  | .undefined => .nan
  | .null => .finite 0
  | .bool b => .finite (if b then 1 else 0)
  | .number x => x
  | .string s => stringToNumber s
  | .array items => stringToNumber (nt.joinItems items)
  | .object _ => .nan

example : stringToNumber " 0x10 " = .finite 16 := by decide +kernel

/-- The value is a number, or a text of a literal whose exact value is the number. -/
inductive States : Value → ℕ → Prop
  | number (n : ℕ) : States (.number (.ofNat n)) n
  | text {s : Text} {n : ℕ} (hs : trim s ≠ []) (h : numericLiteral (trim s) = some (.ofNat n)) :
      States (.string s) n

/-- The value does not state the number that it is read as. -/
inductive Coerces (nt : NumberText) : Value → ℕ → Prop
  | null : Coerces nt .null 0
  | bool (b : Bool) : Coerces nt (.bool b) (if b then 1 else 0)
  | blank {s : Text} (h : trim s = []) : Coerces nt (.string s) 0
  | rounded {s : Text} {q : ℚ} {n : ℕ} (hs : trim s ≠ [])
      (h : numericLiteral (trim s) = some (.finite q)) (hne : q ≠ n)
      (hround : toDouble q = .ofNat n) : Coerces nt (.string s) n
  | array {items : List Value} {n : ℕ} (h : stringToNumber (nt.joinItems items) = .ofNat n) :
      Coerces nt (.array items) n

section

variable {nt : NumberText} {v : Value} {n : ℕ}

theorem ofNat_inj {m : ℕ} : Number.ofNat m = .ofNat n ↔ m = n := by
  rw [Number.ofNat, Number.ofNat, Number.finite.injEq, Nat.cast_inj]

/-- No value both states a number and is read as another kind. -/
theorem States.not_coerces (h : States v n) (hn : n < 2 ^ 53) (m : ℕ) : ¬ Coerces nt v m := by
  intro hcoerces
  cases h with
  | number => cases hcoerces
  | text hs hlit =>
    cases hcoerces with
    | blank hblank => exact hs hblank
    | rounded _ hlit' hne hround =>
      obtain rfl := Number.finite.inj (Option.some.inj (hlit.symm.trans hlit'))
      rw [toDouble_natCast hn, ofNat_inj] at hround
      exact hne (congrArg Nat.cast hround)

/-- A text that is not blank is read only by its literal. -/
theorem exists_literal (hn : n < 2 ^ 53) {s : Text} (hs : trim s ≠ [])
    (h : States (.string s) n ∨ Coerces nt (.string s) n) :
    ∃ q, numericLiteral (trim s) = some (.finite q) ∧ toDouble q = .ofNat n := by
  rcases h with h | h
  · cases h with
    | text _ hlit => exact ⟨n, hlit, toDouble_natCast hn⟩
  · cases h with
    | blank hblank => exact absurd hblank hs
    | rounded _ hlit _ hround => exact ⟨_, hlit, hround⟩

theorem stringToNumber_eq_iff (hn : n < 2 ^ 53) {s : Text} :
    stringToNumber s = .ofNat n ↔ States (.string s) n ∨ Coerces nt (.string s) n := by
  rw [stringToNumber]
  by_cases hs : trim s = []
  · rw [if_pos hs]
    constructor
    · intro h
      obtain rfl : 0 = n := ofNat_inj.mp h
      exact Or.inr (.blank hs)
    · rintro (h | h)
      · cases h with
        | text hne => exact absurd hs hne
      · cases h with
        | blank => rfl
        | rounded hne => exact absurd hs hne
  rw [if_neg hs]
  cases hlit : numericLiteral (trim s) with
  | none =>
    refine iff_of_false (fun h => by cases h) fun h => ?_
    obtain ⟨q, hq, -⟩ := exists_literal hn hs h
    cases hlit.symm.trans hq
  | some x =>
    cases x with
    | finite q =>
      constructor
      · intro h
        by_cases hq : q = n
        · subst hq
          exact Or.inl (.text hs hlit)
        · exact Or.inr (.rounded hs hlit hq h)
      · intro h
        obtain ⟨q', hq', hround⟩ := exists_literal hn hs h
        obtain rfl := Number.finite.inj (Option.some.inj (hlit.symm.trans hq'))
        exact hround
    | nan =>
      refine iff_of_false (fun h => by cases h) fun h => ?_
      obtain ⟨q, hq, -⟩ := exists_literal hn hs h
      cases hlit.symm.trans hq
    | infinite negative =>
      refine iff_of_false (fun h => by cases h) fun h => ?_
      obtain ⟨q, hq, -⟩ := exists_literal hn hs h
      cases hlit.symm.trans hq

/-- **Which values are read as a natural number.** -/
theorem toNumber_eq_iff (hn : n < 2 ^ 53) :
    toNumber nt v = .ofNat n ↔ States v n ∨ Coerces nt v n := by
  cases v with
  | undefined => exact iff_of_false (fun h => by cases h) (by rintro (h | h) <;> cases h)
  | object fields => exact iff_of_false (fun h => by cases h) (by rintro (h | h) <;> cases h)
  | null =>
    constructor
    · intro h
      obtain rfl : 0 = n := ofNat_inj.mp h
      exact Or.inr .null
    · rintro (h | h)
      · cases h
      · cases h
        rfl
  | bool b =>
    have hvalue : toNumber nt (.bool b) = .ofNat (if b then 1 else 0) := by
      cases b <;> rfl
    rw [hvalue, ofNat_inj]
    constructor
    · rintro rfl
      exact Or.inr (.bool b)
    · rintro (h | h)
      · cases h
      · cases h
        rfl
  | number x =>
    constructor
    · rintro rfl
      exact Or.inl (.number n)
    · rintro (h | h)
      · cases h
        rfl
      · cases h
  | string s => exact stringToNumber_eq_iff hn
  | array items =>
    constructor
    · exact fun h => Or.inr (.array h)
    · rintro (h | h)
      · cases h
      · cases h with
        | array h => exact h

end

/-! ## Engines that read numbers so -/

section

variable {nt nt' : NumberText}

theorem text_congr (h : nt.other = nt'.other) (x : Number) : nt.text x = nt'.text x := by
  rw [NumberText.text, NumberText.text, h]

mutual

theorem stringOf_congr (h : nt.other = nt'.other) : ∀ v : Value, nt.stringOf v = nt'.stringOf v
  | .undefined => rfl
  | .null => rfl
  | .bool _ => rfl
  | .number x => text_congr h x
  | .string _ => rfl
  | .array items => joinItems_congr h items
  | .object _ => rfl

theorem joinItems_congr (h : nt.other = nt'.other) :
    ∀ items : List Value, nt.joinItems items = nt'.joinItems items
  | [] => rfl
  | [v] => congrArg (fun t => if v.isNullish then [] else t) (stringOf_congr h v)
  | v :: w :: vs =>
    congrArg₂ (fun t u => (if v.isNullish then [] else t) ++ ',' :: u) (stringOf_congr h v)
      (joinItems_congr h (w :: vs))

end

/-- `Number(v)` as it is documented. -/
def withNumber (nt : NumberText) : NumberText := { nt with parse := toNumber nt }

theorem toNumber_congr (h : nt.other = nt'.other) (v : Value) : toNumber nt v = toNumber nt' v := by
  cases v with
  | array items => rw [toNumber, toNumber, joinItems_congr h]
  | _ => simp only [toNumber]

theorem number_withNumber (v : Value) :
    (withNumber nt).number v = toNumber (withNumber nt) v := by
  have hparse : (withNumber nt).parse = toNumber nt := rfl
  have hother : nt.other = (withNumber nt).other := rfl
  rw [← toNumber_congr hother v]
  cases v with
  | number x => rw [NumberText.number, toNumber]
  | _ => simp only [NumberText.number, hparse]

end

/-! ## Prefixes -/

/-- `parseInt(s, 10)` -/
def parseInt10 (s : Text) : Number :=
  let s := s.dropWhile isSpace
  let negative : Bool := s.head? = some '-'
  let s := if s.head? = some '-' ∨ s.head? = some '+' then s.tail else s
  let ds := s.takeWhile Char.isDigit
  if ds = [] then .nan else toDouble (if negative then - (numeral 10 ds : ℚ) else numeral 10 ds)

end BoingObserver.Js
