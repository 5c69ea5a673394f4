import BoingObserver.Js.Numeral
import Mathlib.Algebra.Order.Ring.Rat
import Mathlib.Data.List.DropRight
import Mathlib.Tactic.FieldSimp

/-!
# Decimal texts

Numbers written with a decimal point: how the digits of a number are cut at the point,
and what number a text denotes.

* `padDecimal_succ`: the digits before the point are those of the quotient, the
  digits after it those of the remainder.
* `fixedValue_trimZeros`: zeros at the end of a fraction do not count.
* `decimalValue_fixedText`: a text with a point is read as what it was written for.
* `decimalValue_exactText`: the exact text of a quotient denotes it.
-/

namespace BoingObserver.Js

/-! ## Cutting digits -/

/-- The digits of `n`, in a width of `k`. -/
def padDecimal (k n : ℕ) : Text := (decimal n).leftpad k '0'

theorem length_padDecimal {k n : ℕ} (hk : 0 < k) (h : n < 10 ^ k) : (padDecimal k n).length = k := by
  rw [padDecimal, List.length_leftpad]
  exact max_eq_left ((length_decimal_le_iff hk).mpr h)

@[simp] theorem numeral_padDecimal (k n : ℕ) : numeral 10 (padDecimal k n) = n := by
  rw [padDecimal, numeral_leftpad, numeral_decimal]

theorem isDigit_padDecimal {k n : ℕ} {c : Char} (h : c ∈ padDecimal k n) : c.isDigit = true := by
  rw [padDecimal, List.leftpad, List.mem_append] at h
  rcases h with h | h
  · rw [List.eq_of_mem_replicate h]
    rfl
  · exact (isDigits_decimal n).2 c h

/-- **Digits cut at a point** are those of the quotient and those of the remainder. -/
theorem padDecimal_succ {d : ℕ} (hd : 0 < d) (v : ℕ) :
    padDecimal (d + 1) v = decimal (v / 10 ^ d) ++ padDecimal d (v % 10 ^ d) := by
  have hpow : 0 < 10 ^ d := Nat.pow_pos (by omega)
  have hrest : v % 10 ^ d < 10 ^ d := Nat.mod_lt v hpow
  have hdigits : ∀ c ∈ decimal (v / 10 ^ d) ++ padDecimal d (v % 10 ^ d), c.isDigit = true := by
    intro c hc
    rcases List.mem_append.mp hc with hc | hc
    · exact (isDigits_decimal _).2 c hc
    · exact isDigit_padDecimal hc
  -- a quotient has `d` digits less, unless it is zero
  have hlen {j : ℕ} (hj : 0 < j) :
      (decimal (v / 10 ^ d)).length ≤ j ↔ (decimal v).length ≤ j + d := by
    rw [length_decimal_le_iff hj, length_decimal_le_iff (by omega), Nat.div_lt_iff_lt_mul hpow,
      Nat.pow_add]
  have hlength : (padDecimal (d + 1) v).length =
      (decimal (v / 10 ^ d) ++ padDecimal d (v % 10 ^ d)).length := by
    rw [List.length_append, length_padDecimal hd hrest, padDecimal, List.length_leftpad]
    have hpos : 0 < (decimal (v / 10 ^ d)).length :=
      List.length_pos_iff.mpr (isDigits_decimal _).1
    have hle := (hlen hpos).mp le_rfl
    by_cases hone : (decimal (v / 10 ^ d)).length = 1
    · omega
    · have hlt := mt (hlen (j := (decimal (v / 10 ^ d)).length - 1) (by omega)).mpr (by omega)
      omega
  refine numeral_ten_inj (fun c hc => isDigit_padDecimal hc) hdigits hlength ?_
  rw [numeral_append, numeral_padDecimal, numeral_padDecimal, numeral_decimal,
    length_padDecimal hd hrest]
  exact (Nat.div_add_mod' v (10 ^ d)).symm

section

variable {d : ℕ} (hd : 0 < d) (v : ℕ)
include hd

theorem length_padDecimal_succ :
    (padDecimal (d + 1) v).length - d = (decimal (v / 10 ^ d)).length := by
  rw [padDecimal_succ hd, List.length_append,
    length_padDecimal hd (Nat.mod_lt v (Nat.pow_pos (by omega)))]
  omega

theorem take_padDecimal :
    (padDecimal (d + 1) v).take ((padDecimal (d + 1) v).length - d) = decimal (v / 10 ^ d) := by
  rw [length_padDecimal_succ hd, padDecimal_succ hd, List.take_left]

theorem drop_padDecimal :
    (padDecimal (d + 1) v).drop ((padDecimal (d + 1) v).length - d) =
      padDecimal d (v % 10 ^ d) := by
  rw [length_padDecimal_succ hd, padDecimal_succ hd, List.drop_left]

end

/-! ## Fractions -/

/-- `s.replace(/0+$/, "")` -/
def trimZeros (s : Text) : Text := s.rdropWhile (· = '0')

theorem trimZeros_of_ne {s : Text} {c : Char} (hc : c ≠ '0') : trimZeros (s ++ [c]) = s ++ [c] :=
  List.rdropWhile_concat_neg _ _ _ (by simpa using hc)

theorem trimZeros_of_eq {s : Text} {c : Char} (hc : c = '0') : trimZeros (s ++ [c]) = trimZeros s :=
  List.rdropWhile_concat_pos _ _ _ (by simpa using hc)

theorem trimZeros_append (s : Text) : ∃ k, s = trimZeros s ++ List.replicate k '0' := by
  induction s using List.reverseRecOn with
  | nil => exact ⟨0, rfl⟩
  | append_singleton s c ih =>
    by_cases hc : c = '0'
    · obtain ⟨k, hk⟩ := ih
      refine ⟨k + 1, ?_⟩
      rw [trimZeros_of_eq hc, List.replicate_succ', ← List.append_assoc, ← hk, hc]
    · exact ⟨0, by rw [trimZeros_of_ne hc, List.replicate_zero, List.append_nil]⟩

theorem trimZeros_append_cons {c : Char} (hc : c ≠ '0') (s t : Text) :
    trimZeros (s ++ c :: t) = s ++ c :: trimZeros t := by
  induction t using List.reverseRecOn with
  | nil => exact trimZeros_of_ne hc
  | append_singleton t d ih =>
    have hassoc : s ++ c :: (t ++ [d]) = (s ++ c :: t) ++ [d] := by
      rw [List.append_assoc, List.cons_append]
    by_cases hd : d = '0'
    · rw [hassoc, trimZeros_of_eq hd, trimZeros_of_eq hd, ih]
    · rw [hassoc, trimZeros_of_ne hd, trimZeros_of_ne hd, hassoc]

theorem mem_of_mem_trimZeros {s : Text} {c : Char} (h : c ∈ trimZeros s) : c ∈ s :=
  (List.rdropWhile_prefix _ _).subset h

theorem getLast?_trimZeros (s : Text) : (trimZeros s).getLast? ≠ some '0' := by
  intro h
  have hne : trimZeros s ≠ [] := by
    rintro hnil
    rw [hnil] at h
    cases h
  have hlast := List.rdropWhile_last_not (fun c : Char => decide (c = '0')) s hne
  rw [List.getLast?_eq_some_getLast hne] at h
  exact hlast (decide_eq_true (Option.some.inj h))

theorem trimZeros_eq_nil_iff {s : Text} (h : ∀ c ∈ s, c.isDigit = true) :
    trimZeros s = [] ↔ numeral 10 s = 0 := by
  constructor
  · intro hnil
    obtain ⟨k, hk⟩ := trimZeros_append s
    rw [hk, hnil, List.nil_append, numeral_replicate_zero]
  · intro hzero
    have hall : s.all (· = '0') = true := by
      by_contra hne
      exact (numeral_pos h hne).ne' hzero
    exact List.rdropWhile_eq_nil_iff.mpr (List.all_eq_true.mp hall)

def fixedValue (int frac : Text) : ℚ := (numeral 10 (int ++ frac) : ℚ) / 10 ^ frac.length

theorem fixedValue_nil (int : Text) : fixedValue int [] = numeral 10 int := by
  rw [fixedValue, List.append_nil, List.length_nil, pow_zero, div_one]

/-- **Zeros at the end of a fraction do not count.** -/
theorem fixedValue_trimZeros (int frac : Text) :
    fixedValue int (trimZeros frac) = fixedValue int frac := by
  obtain ⟨k, hk⟩ := trimZeros_append frac
  have hnumeral : numeral 10 (int ++ frac) = numeral 10 (int ++ trimZeros frac) * 10 ^ k := by
    conv_lhs => rw [hk]
    rw [← List.append_assoc, numeral_append, numeral_replicate_zero, List.length_replicate,
      Nat.add_zero]
  have hlength : frac.length = (trimZeros frac).length + k := by
    conv_lhs => rw [hk]
    rw [List.length_append, List.length_replicate]
  rw [fixedValue, fixedValue, hnumeral, hlength, pow_add, Nat.cast_mul, Nat.cast_pow,
    Nat.cast_ofNat, mul_div_mul_right _ _ (pow_ne_zero k (by norm_num))]

theorem fixedValue_padDecimal {d : ℕ} (hd : 0 < d) (v : ℕ) :
    fixedValue (decimal (v / 10 ^ d)) (padDecimal d (v % 10 ^ d)) = (v : ℚ) / 10 ^ d := by
  have hrest : v % 10 ^ d < 10 ^ d := Nat.mod_lt v (Nat.pow_pos (by omega))
  rw [fixedValue, numeral_append, numeral_decimal, numeral_padDecimal, length_padDecimal hd hrest,
    Nat.div_add_mod']

/-! ## Reading -/

def fixedText (int frac : Text) : Text := if frac = [] then int else int ++ '.' :: frac

def readFixed (s : Text) : Option (ℚ × Text) :=
  let int := s.takeWhile Char.isDigit
  if int = [] then none
  else
    match s.dropWhile Char.isDigit with
    | '.' :: r =>
      let frac := r.takeWhile Char.isDigit
      if frac = [] then none else some (fixedValue int frac, r.dropWhile Char.isDigit)
    | r => some (fixedValue int [], r)

def decimalValue (s : Text) : Option ℚ :=
  match readFixed s with
  | some (q, []) => some q
  | _ => none

def fractionOf (s : Text) : Text := (s.dropWhile (· ≠ '.')).tail

def EndsNumber (s : Text) : Prop := ∀ c ∈ s.head?, c.isDigit = false ∧ c ≠ '.'

theorem endsNumber_nil : EndsNumber [] := fun _ h => by cases h

section

variable {int frac rest : Text}

theorem takeWhile_digits (hint : ∀ c ∈ int, c.isDigit = true)
    (hrest : ∀ c ∈ rest.head?, c.isDigit = false) :
    (int ++ rest).takeWhile Char.isDigit = int ∧ (int ++ rest).dropWhile Char.isDigit = rest := by
  have hstop : rest.takeWhile Char.isDigit = [] ∧ rest.dropWhile Char.isDigit = rest := by
    cases rest with
    | nil => exact ⟨rfl, rfl⟩
    | cons c rest =>
      have hc : ¬ c.isDigit = true := by
        rw [hrest c rfl]
        decide
      exact ⟨List.takeWhile_cons_of_neg hc, List.dropWhile_cons_of_neg hc⟩
  rw [List.takeWhile_append_of_pos hint, List.dropWhile_append_of_pos hint, hstop.1, hstop.2,
    List.append_nil]
  exact ⟨rfl, rfl⟩

/-- **What was written with a point is read back**, with what follows. -/
theorem readFixed_fixedText (hint : IsDigits int) (hfrac : ∀ c ∈ frac, c.isDigit = true)
    (hrest : EndsNumber rest) :
    readFixed (fixedText int frac ++ rest) = some (fixedValue int frac, rest) := by
  rw [fixedText, readFixed]
  by_cases hnil : frac = []
  · subst hnil
    obtain ⟨htake, hdrop⟩ := takeWhile_digits hint.2 fun c hc => (hrest c hc).1
    rw [if_pos rfl, htake, hdrop]
    dsimp only
    rw [if_neg hint.1]
    cases rest with
    | nil => rfl
    | cons c rest =>
      have hpoint : c ≠ '.' := (hrest c rfl).2
      split
      next h => exact absurd (List.cons.inj h).1 hpoint
      next => rfl
  · have hpoint : ∀ c ∈ ('.' :: (frac ++ rest)).head?, c.isDigit = false := by
      rintro c ⟨⟩
      rfl
    obtain ⟨htake, hdrop⟩ := takeWhile_digits hint.2 hpoint
    obtain ⟨htake', hdrop'⟩ := takeWhile_digits hfrac fun c hc => (hrest c hc).1
    rw [if_neg hnil, List.append_assoc, List.cons_append, htake, hdrop]
    dsimp only
    rw [if_neg hint.1]
    split
    next r hr =>
      obtain rfl : frac ++ rest = r := (List.cons.inj hr).2
      rw [htake', hdrop', if_neg hnil]
    next hno => exact absurd rfl (hno _)

theorem decimalValue_fixedText (hint : IsDigits int) (hfrac : ∀ c ∈ frac, c.isDigit = true) :
    decimalValue (fixedText int frac) = some (fixedValue int frac) := by
  have hread := readFixed_fixedText hint hfrac endsNumber_nil
  rw [List.append_nil] at hread
  rw [decimalValue, hread]

theorem fractionOf_fixedText (hint : ∀ c ∈ int, c.isDigit = true) :
    fractionOf (fixedText int frac) = frac := by
  have hne : ∀ c ∈ int, decide (c ≠ '.') = true := by
    intro c hc
    refine decide_eq_true ?_
    rintro rfl
    exact absurd (hint _ hc) (by decide)
  rw [fractionOf, fixedText]
  by_cases hnil : frac = []
  · rw [if_pos hnil, List.dropWhile_eq_nil_iff.mpr hne, hnil]
    rfl
  · rw [if_neg hnil, List.dropWhile_append_of_pos hne, List.dropWhile_cons_of_neg (by decide)]
    rfl

end

/-! ## Exact texts -/

/-- `v / 10 ^ d` in full: its digits with a point, and no zeros at the end of the fraction. -/
def exactText (d v : ℕ) : Text :=
  fixedText (decimal (v / 10 ^ d)) (if d = 0 then [] else trimZeros (padDecimal d (v % 10 ^ d)))

section

variable (d v : ℕ)

theorem isDigit_fraction : ∀ c ∈ if d = 0 then [] else trimZeros (padDecimal d (v % 10 ^ d)),
    c.isDigit = true := by
  intro c hc
  split at hc
  · cases hc
  · exact isDigit_padDecimal (mem_of_mem_trimZeros hc)

theorem fixedValue_exact : fixedValue (decimal (v / 10 ^ d))
    (if d = 0 then [] else trimZeros (padDecimal d (v % 10 ^ d))) = (v : ℚ) / 10 ^ d := by
  by_cases hd : d = 0
  · subst hd
    rw [if_pos rfl, fixedValue_nil, numeral_decimal, pow_zero, pow_zero, Nat.div_one, div_one]
  · rw [if_neg hd, fixedValue_trimZeros, fixedValue_padDecimal (Nat.pos_of_ne_zero hd)]

/-- **An exact text denotes the exact quotient.** -/
theorem decimalValue_exactText : decimalValue (exactText d v) = some ((v : ℚ) / 10 ^ d) := by
  rw [exactText, decimalValue_fixedText (isDigits_decimal _) (isDigit_fraction d v),
    fixedValue_exact]

theorem getLast?_fractionOf_exactText : (fractionOf (exactText d v)).getLast? ≠ some '0' := by
  rw [exactText, fractionOf_fixedText (isDigits_decimal _).2]
  split
  · exact fun h => by cases h
  · exact getLast?_trimZeros _

end

/-! ## Grouped digits -/

def ungroup (s : Text) : Text := s.filter (· ≠ ',')

theorem ungroup_append (s t : Text) : ungroup (s ++ t) = ungroup s ++ ungroup t :=
  List.filter_append s t

theorem ungroup_ungroup (s : Text) : ungroup (ungroup s) = ungroup s := by
  rw [ungroup, ungroup, List.filter_filter]
  simp only [Bool.and_self]

theorem ungroup_eq_self {s : Text} (h : ',' ∉ s) : ungroup s = s := by
  refine List.filter_eq_self.mpr fun c hc => decide_eq_true ?_
  rintro rfl
  exact h hc

theorem comma_not_mem {s : Text} (h : ∀ c ∈ s, c.isDigit = true) : ',' ∉ s := fun hc =>
  absurd (h _ hc) (by decide)

theorem ungroup_fixedText {int frac grouped : Text} (hint : ungroup grouped = int)
    (hfrac : ∀ c ∈ frac, c.isDigit = true) :
    ungroup (if frac = [] then grouped else grouped ++ '.' :: frac) = fixedText int frac := by
  rw [fixedText]
  by_cases hnil : frac = []
  · rw [if_pos hnil, if_pos hnil, hint]
  · have hpoint : ungroup ('.' :: frac) = '.' :: frac :=
      ungroup_eq_self (List.not_mem_cons_of_ne_of_not_mem (by decide) (comma_not_mem hfrac))
    rw [if_neg hnil, if_neg hnil, ungroup_append, hint, hpoint]

theorem ungroup_exactText (d v : ℕ) : ungroup (exactText d v) = exactText d v :=
  ungroup_fixedText (ungroup_eq_self (comma_not_mem (isDigits_decimal _).2)) (isDigit_fraction d v)

end BoingObserver.Js
