import BoingObserver.NativeUnit.Format

/-!
# What a short amount tells

The `short` text of an amount in `native-unit.ts` against its unit: as many whole
BOING are never written as as many base units.

* `short_compactBoing_mul`: whole BOING are written like any count.
* `head?_compactBoing_of_lt`, `short_compactBoing_of_le`: how amounts below one BOING, and
  from one BOING on, are written.
* `short_compactBoing_ne`: the two units of one number differ.
* `short_compactBoingAt_eq_iff`: when two networks write an amount in one way.
-/

namespace BoingObserver.NativeUnit

open Js

/-! ## Decimals of a number -/

theorem stripZeros_decimal {n : ℕ} (h : n ≠ 0) : stripZeros (decimal n) = decimal n := by
  obtain ⟨c, s, hs, hc, -⟩ := decimal_head h
  have hdrop : (decimal n).dropWhile (· = '0') = decimal n := by
    rw [hs, List.dropWhile_cons_of_neg (by simpa using hc)]
  rw [stripZeros, hdrop, if_neg (isDigits_decimal n).1]

/-! ## Grouped digits -/

theorem head?_groupDigits (s : Text) : (groupDigits s).head? = s.head? := by
  cases s with
  | nil => rfl
  | cons c s =>
    rw [groupDigits]
    split <;> rfl

theorem mem_groupDigits {s : Text} {c : Char} (h : c ∈ groupDigits s) : c ∈ s ∨ c = ',' := by
  induction s with
  | nil => exact absurd h List.not_mem_nil
  | cons d s ih =>
    rw [groupDigits] at h
    split at h
    · rcases List.mem_cons.mp h with rfl | h
      · exact Or.inl List.mem_cons_self
      · rcases List.mem_cons.mp h with rfl | h
        · exact Or.inr rfl
        · exact (ih h).imp_left (List.mem_cons_of_mem d)
    · rcases List.mem_cons.mp h with rfl | h
      · exact Or.inl List.mem_cons_self
      · exact (ih h).imp_left (List.mem_cons_of_mem d)

theorem ne_e_of_isDigit {c : Char} (h : c.isDigit = true) : c ≠ 'e' := by
  rintro rfl
  exact absurd h (by decide)

theorem e_not_mem_groupDigits (n : ℕ) : 'e' ∉ groupDigits (decimal n) := by
  intro h
  rcases mem_groupDigits h with h | h
  · exact ne_e_of_isDigit ((isDigits_decimal n).2 _ h) rfl
  · exact absurd h (by decide)

/-! ## Counts -/

def scientific (n : ℕ) : Text :=
  slice (decimal n) 0 1 ++ "." ++ slice (decimal n) 1 2 ++ "e" ++ decimal ((decimal n).length - 1)

def suffixed (n : ℕ) : Text :=
  let digits := decimal n
  let k := (digits.length - 1) / 3
  let intLen := digits.length - k * 3
  let dec := slice digits intLen (intLen + 1)
  digits.take intLen ++ (if dec = "0" then [] else '.' :: dec) ++ suffixes.getD k []

/-- **How a count is shortened**, by its length. -/
theorem short_compactAmount {n : ℕ} (h : n ≠ 0) : (compactAmount (decimal n)).short =
    if (decimal n).length ≤ 6 then groupDigits (decimal n)
    else if (decimal n).length ≤ 15 then suffixed n else scientific n := by
  rw [compactAmount, trim_decimal, if_neg (not_not.mpr (isDigits_decimal n))]
  dsimp only
  rw [stripZeros_decimal h]
  by_cases h6 : (decimal n).length ≤ 6
  · rw [if_pos h6, if_pos h6]
  rw [if_neg h6, if_neg h6]
  by_cases h15 : (decimal n).length ≤ 15
  · rw [if_pos h15, if_pos h15]
    rfl
  · rw [if_neg h15, if_neg h15]
    rfl

theorem head?_compactAmount {n : ℕ} (h : n ≠ 0) :
    (compactAmount (decimal n)).short.head? = (decimal n).head? := by
  obtain ⟨c, s, hs, -, -⟩ := decimal_head h
  have htake {k : ℕ} (hk : 0 < k) (t : Text) : ((decimal n).take k ++ t).head? = some c := by
    rw [hs]
    cases k with
    | zero => omega
    | succ k => rfl
  rw [short_compactAmount h, hs, List.head?_cons, ← hs]
  split_ifs
  · rw [head?_groupDigits, hs, List.head?_cons]
  · rw [suffixed, List.append_assoc]
    exact htake (by omega) _
  · rw [scientific, List.append_assoc, List.append_assoc, List.append_assoc]
    exact htake Nat.one_pos _

theorem e_not_mem_suffixed (n : ℕ) : 'e' ∉ suffixed n := by
  have hdigits {s : Text} (hs : s ⊆ decimal n) : 'e' ∉ s := fun h =>
    ne_e_of_isDigit ((isDigits_decimal n).2 _ (hs h)) rfl
  have hslice (a b : ℕ) : slice (decimal n) a b ⊆ decimal n := fun c hc =>
    List.mem_of_mem_drop (List.mem_of_mem_take hc)
  have hsuffix (k : ℕ) : 'e' ∉ suffixes.getD k [] := by
    rw [List.getD_eq_getElem?_getD]
    cases hk : suffixes[k]? with
    | none => exact List.not_mem_nil
    | some t =>
      have hall : ∀ t ∈ suffixes, 'e' ∉ t := by decide
      exact hall t (List.mem_of_getElem? hk)
  rw [suffixed]
  intro h
  rcases List.mem_append.mp h with h | h
  · rcases List.mem_append.mp h with h | h
    · exact hdigits (List.take_subset _ _) h
    · split at h
      · exact absurd h List.not_mem_nil
      · rcases List.mem_cons.mp h with h | h
        · exact absurd h (by decide)
        · exact hdigits (hslice _ _) h
  · exact hsuffix _ h

theorem e_mem_scientific (n : ℕ) : 'e' ∈ scientific n := by
  rw [scientific]
  exact List.mem_append_left _ (List.mem_append_right _ (by decide))

/-! ## Amounts -/

theorem fraction_mul (n : ℕ) : fraction (n * baseUnitsPerBoing) 4 = [] := by
  rw [fraction, Nat.mul_mod_left]
  decide

theorem mul_div_baseUnitsPerBoing (n : ℕ) : n * baseUnitsPerBoing / baseUnitsPerBoing = n :=
  Nat.mul_div_cancel n (by decide)

/-- **Whole BOING are written like any count.** -/
theorem short_compactBoing_mul {n : ℕ} (h : n ≠ 0) :
    (compactBoing (n * baseUnitsPerBoing)).short = (compactAmount (decimal n)).short := by
  rw [compactBoing, mul_div_baseUnitsPerBoing]
  by_cases h6 : 6 < (decimal n).length
  · rw [if_pos h6]
  · rw [if_neg h6, short_compactAmount h, if_pos (not_lt.mp h6)]
    dsimp only
    rw [formatBoingBase, mul_div_baseUnitsPerBoing, fraction_mul, if_neg fun e => h e.2.2,
      if_pos rfl]

/-- **Amounts below one BOING** begin with a zero or a `<`. -/
theorem head?_compactBoing_of_lt {n : ℕ} (h : n ≠ 0) (hlt : n < baseUnitsPerBoing) :
    (compactBoing n).short.head? = some '0' ∨ (compactBoing n).short.head? = some '<' := by
  have hwhole : n / baseUnitsPerBoing = 0 := Nat.div_eq_of_lt hlt
  have hshort : (compactBoing n).short = formatBoingBase n 4 := by
    rw [compactBoing, hwhole]
    rfl
  rw [hshort, formatBoingBase, hwhole]
  by_cases hfrac : fraction n 4 = []
  · rw [if_pos ⟨hfrac, Nat.pos_of_ne_zero h, rfl⟩]
    exact Or.inr rfl
  · rw [if_neg fun e => hfrac e.1, if_neg hfrac]
    exact Or.inl rfl

theorem e_not_mem_fraction (n k : ℕ) : 'e' ∉ fraction n k := by
  intro h
  have hpad := List.mem_of_mem_take ((List.rdropWhile_prefix _ _).subset h)
  rw [List.leftpad, List.mem_append] at hpad
  rcases hpad with hpad | hpad
  · exact absurd (List.eq_of_mem_replicate hpad) (by decide)
  · exact ne_e_of_isDigit ((isDigits_decimal _).2 _ hpad) rfl

/-- An amount of one BOING or more is written with an `e` only if it has 16 digits or more. -/
theorem short_compactBoing_of_le {n : ℕ} (hle : baseUnitsPerBoing ≤ n) :
    'e' ∉ (compactBoing n).short ∨ 15 < (decimal (n / baseUnitsPerBoing)).length ∧
      (compactBoing n).short = scientific (n / baseUnitsPerBoing) := by
  have hwhole : n / baseUnitsPerBoing ≠ 0 := (Nat.div_pos hle (by decide)).ne'
  rw [compactBoing]
  by_cases h6 : 6 < (decimal (n / baseUnitsPerBoing)).length
  · rw [if_pos h6]
    dsimp only
    rw [short_compactAmount hwhole, if_neg (not_le.mpr h6)]
    by_cases h15 : (decimal (n / baseUnitsPerBoing)).length ≤ 15
    · rw [if_pos h15]
      exact Or.inl (e_not_mem_suffixed _)
    · rw [if_neg h15]
      exact Or.inr ⟨not_le.mp h15, rfl⟩
  · rw [if_neg h6, formatBoingBase]
    dsimp only
    refine Or.inl ?_
    rw [if_neg fun e => hwhole e.2.2]
    split
    · exact e_not_mem_groupDigits _
    · intro h
      rcases List.mem_append.mp h with h | h
      · rcases List.mem_append.mp h with h | h
        · exact e_not_mem_groupDigits _ h
        · exact absurd h (by decide)
      · exact e_not_mem_fraction _ _ h

theorem drop_scientific {n : ℕ} (h : 2 ≤ (decimal n).length) :
    (scientific n).drop 4 = decimal ((decimal n).length - 1) := by
  refine List.drop_left' ?_
  have hdigit (a : ℕ) (ha : a < 2) : (slice (decimal n) a (a + 1)).length = 1 := by
    rw [slice, List.length_take, List.length_drop]
    omega
  rw [List.length_append, List.length_append, List.length_append, hdigit 0 (by omega),
    hdigit 1 (by omega)]
  rfl

theorem length_eq_of_scientific_eq {m n : ℕ} (hm : 2 ≤ (decimal m).length)
    (hn : 2 ≤ (decimal n).length) (h : scientific m = scientific n) :
    (decimal m).length = (decimal n).length := by
  have hexponent := congrArg (List.drop 4) h
  rw [drop_scientific hm, drop_scientific hn] at hexponent
  have := decimal_injective hexponent
  omega

/-- **The two units of one number are never written in one way**, unless it is zero. -/
theorem short_compactBoing_ne {n : ℕ} (h : n ≠ 0) :
    (compactBoing n).short ≠ (compactBoing (n * baseUnitsPerBoing)).short := by
  intro heq
  rw [short_compactBoing_mul h] at heq
  by_cases hlt : n < baseUnitsPerBoing
  · obtain ⟨c, s, hs, hc, hdigit⟩ := decimal_head h
    have hhead := head?_compactAmount h
    rw [← heq, hs, List.head?_cons] at hhead
    rcases head?_compactBoing_of_lt h hlt with h0 | hless
    · exact hc (Option.some.inj (hhead.symm.trans h0))
    · obtain rfl := Option.some.inj (hhead.symm.trans hless)
      exact absurd hdigit (by decide)
  · have hlen (k : ℕ) (hk : 0 < k) (hpow : 10 ^ k ≤ n) : k < (decimal n).length := by
      by_contra hle
      have := (length_decimal_le_iff hk).mp (not_lt.mp hle)
      omega
    have h18 : 18 < (decimal n).length := hlen 18 (by omega) (not_lt.mp hlt)
    rw [short_compactAmount h, if_neg (by omega), if_neg (by omega)] at heq
    rcases short_compactBoing_of_le (not_lt.mp hlt) with he | ⟨h15, hshort⟩
    · rw [heq] at he
      exact he (e_mem_scientific n)
    · rw [hshort] at heq
      have hsame := length_eq_of_scientific_eq (by omega) (by omega) heq
      have hpow : n < 10 ^ (decimal n).length :=
        (length_decimal_le_iff (by omega)).mp le_rfl
      have hwhole : n / baseUnitsPerBoing < 10 ^ ((decimal n).length - 18) := by
        rw [Nat.div_lt_iff_lt_mul (by decide)]
        have hsplit : 10 ^ ((decimal n).length - 18) * baseUnitsPerBoing =
            10 ^ (decimal n).length := by
          rw [show baseUnitsPerBoing = 10 ^ 18 by decide, ← pow_add]
          congr 1
          omega
        rwa [hsplit]
      have hshorter := (length_decimal_le_iff (by omega)).mpr hwhole
      omega

/-- **Two networks write an amount in one way** iff it is no number, or zero, or they agree on
the unit. -/
theorem short_compactBoingAt_eq_iff {nt : NumberText} {registry : Registry} (raw : Value)
    {height : Option Number} {network network' : Option Text} :
    (compactBoingAt nt registry raw height network).short =
        (compactBoingAt nt registry raw height network').short ↔
      ∀ n, toBigInt nt raw = some n → n ≠ 0 →
        nativeDecimalsAt registry height network = nativeDecimalsAt registry height network' := by
  rw [compactBoingAt, compactBoingAt, toBaseUnits, toBaseUnits, ledgerToBaseUnits,
    ledgerToBaseUnits]
  cases hraw : toBigInt nt raw with
  | none => exact iff_of_true rfl fun n hn => by cases hn
  | some n =>
    rw [Option.map_some, Option.map_some]
    dsimp only
    by_cases hunit : nativeDecimalsAt registry height network =
        nativeDecimalsAt registry height network'
    · rw [hunit]
      exact iff_of_true rfl fun _ _ _ => rfl
    constructor
    · intro heq m hm hm0
      obtain rfl := Option.some.inj hm
      rcases nativeDecimalsAt_eq_or registry height network with h | h
      · have h' := (nativeDecimalsAt_eq_or registry height network').resolve_left
          fun h' => hunit (h.trans h'.symm)
        rw [h, h', if_neg (by decide), if_pos (by decide)] at heq
        exact absurd heq.symm (short_compactBoing_ne hm0)
      · have h' := (nativeDecimalsAt_eq_or registry height network').resolve_right
          fun h' => hunit (h.trans h'.symm)
        rw [h, h', if_pos (by decide), if_neg (by decide)] at heq
        exact absurd heq (short_compactBoing_ne hm0)
    · intro h
      have hn : n = 0 := by
        by_contra hn
        exact hunit (h n rfl hn)
      rw [hn, Nat.zero_mul, ite_self, ite_self]

end BoingObserver.NativeUnit
