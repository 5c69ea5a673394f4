import BoingObserver.Contract.TokenAmount
import BoingObserver.NativeUnit.Format

/-!
# Exact amounts

The exact texts of an amount: `formatBoingBase` of `native-unit.ts`, `formatTokenAmount`
of `tx-decode.ts` and `formatBalance` of `rpc-types.ts`; and the two eras of
`toBaseUnits`.

* `group_eq_groupDigits`: both groupings put the commas in the same places.
* `ungroup_formatBoingBase`, `formatBalance_decimal`: each text is the exact one.
* `formatters_agree`: so the three agree.
-/

namespace BoingObserver.NativeUnit

open Js
open Contract (group groupFrom isWordChar formatTokenAmount)

/-- `s.replace(/^0+/, "") || "0"` -/
def stripZerosOr0 (s : Text) : Text :=
  let t := s.dropWhile (· = '0')
  if t = [] then "0" else t

/-- An amount with `decimals` digits after the point; what is no integer is returned as it is. -/
def formatBalance (raw : Text) (decimals : ℕ) : Text :=
  let s := trim raw
  if ¬ IsDigits s then raw
  else if s = "0" then "0"
  else if decimals = 0 then stripZerosOr0 s
  else
    let padded := s.leftpad (decimals + 1) '0'
    let intPart := stripZerosOr0 (padded.take (padded.length - decimals))
    let fracPart := trimZeros (padded.drop (padded.length - decimals))
    if fracPart = [] then intPart else intPart ++ "." ++ fracPart

/-! ## Groups -/

theorem isWordChar_of_isDigit {c : Char} (h : c.isDigit = true) : isWordChar c = true := by
  rw [isWordChar, Char.isAlphanum, h, Bool.or_true, Bool.true_or]

/-- After a digit, a comma stands before the digits that are left when these make whole groups. -/
theorem groupFrom_digit {s : Text} (h : ∀ c ∈ s, c.isDigit = true) {before : Char}
    (hbefore : before.isDigit = true) : groupFrom (some before) s =
      if s ≠ [] ∧ s.length % 3 = 0 then ',' :: groupDigits s else groupDigits s := by
  induction s generalizing before with
  | nil => rfl
  | cons c s ih =>
    obtain ⟨hc, hs⟩ := List.forall_mem_cons.mp h
    have hrun : (c :: s).takeWhile Char.isDigit = c :: s := List.takeWhile_eq_self_iff.mpr h
    have hrest : c :: groupFrom (some c) s = groupDigits (c :: s) := by
      rw [ih hs hc, groupDigits]
      split <;> rfl
    have hinner : (some before).any isWordChar = true := isWordChar_of_isDigit hbefore
    rw [groupFrom, hrun, hrest, hinner]
    refine if_congr ⟨?_, ?_⟩ rfl rfl
    · rintro ⟨-, -, hmod⟩
      exact ⟨List.cons_ne_nil c s, hmod⟩
    · rintro ⟨-, hmod⟩
      exact ⟨rfl, List.length_pos_iff.mpr (List.cons_ne_nil c s), hmod⟩

/-- **Both groupings put the commas in the same places.** -/
theorem group_eq_groupDigits {s : Text} (h : ∀ c ∈ s, c.isDigit = true) :
    group s = groupDigits s := by
  cases s with
  | nil => rfl
  | cons c s =>
    obtain ⟨hc, hs⟩ := List.forall_mem_cons.mp h
    have hfirst : group (c :: s) = c :: groupFrom (some c) s := by
      simp only [group, groupFrom, Option.any_none, Bool.false_eq_true, false_and, if_false]
    rw [hfirst, groupFrom_digit hs hc, groupDigits]
    split <;> rfl

/-! ## Texts -/

section

variable {v m : ℕ}

/-- An amount that shows nothing. -/
def Tiny (v m : ℕ) : Prop := fraction v m = [] ∧ 0 < v ∧ v / baseUnitsPerBoing = 0

theorem formatBoingBase_of_not_tiny (h : ¬ Tiny v m) : formatBoingBase v m =
    if fraction v m = [] then groupDigits (decimal (v / baseUnitsPerBoing))
    else groupDigits (decimal (v / baseUnitsPerBoing)) ++ '.' :: fraction v m := by
  rw [Tiny] at h
  rw [formatBoingBase, if_neg h, List.append_assoc]
  rfl

theorem isDigit_fraction_base {c : Char} (h : c ∈ fraction v m) : c.isDigit = true :=
  isDigit_padDecimal (List.mem_of_mem_take (mem_of_mem_trimZeros h))

theorem ungroup_formatBoingBase_of_not_tiny (h : ¬ Tiny v m) :
    ungroup (formatBoingBase v m) =
      fixedText (decimal (v / baseUnitsPerBoing)) (fraction v m) := by
  have hwhole : ungroup (groupDigits (decimal (v / baseUnitsPerBoing))) =
      decimal (v / baseUnitsPerBoing) :=
    filter_groupDigits fun c hc hcomma => comma_not_mem (isDigits_decimal _).2 (hcomma ▸ hc)
  rw [formatBoingBase_of_not_tiny h, ungroup_fixedText hwhole fun c hc => isDigit_fraction_base hc]

end

theorem length_decimals (v : ℕ) : (padDecimal 18 (v % baseUnitsPerBoing)).length = 18 :=
  length_padDecimal (by decide) (Nat.mod_lt v (by decide))

theorem fraction_eq (v : ℕ) :
    fraction v boingDecimals = trimZeros (padDecimal 18 (v % baseUnitsPerBoing)) := by
  rw [fraction, boingDecimals, ← padDecimal, List.take_of_length_le (length_decimals v).le]
  rfl

theorem not_tiny (v : ℕ) : ¬ Tiny v boingDecimals := by
  rintro ⟨hfrac, hpos, hwhole⟩
  rw [fraction_eq, trimZeros_eq_nil_iff fun c hc => isDigit_padDecimal hc,
    numeral_padDecimal] at hfrac
  have hv := Nat.div_add_mod v baseUnitsPerBoing
  rw [hwhole, hfrac] at hv
  exact hpos.ne hv

/-- **Without its commas the text is the exact one.** -/
theorem ungroup_formatBoingBase (v : ℕ) :
    ungroup (formatBoingBase v boingDecimals) = exactText 18 v := by
  rw [ungroup_formatBoingBase_of_not_tiny (not_tiny v), fraction_eq]
  rfl

/-- **The two formatters give one text**, commas included. -/
theorem formatBoingBase_eq_formatTokenAmount (v : ℕ) :
    formatBoingBase v boingDecimals = formatTokenAmount v (some (.ofNat 18)) := by
  have husable : Contract.usableDecimals (some (.ofNat 18)) = 18 := rfl
  rw [formatBoingBase_of_not_tiny (not_tiny v), fraction_eq, formatTokenAmount, intText_natCast]
  dsimp only
  rw [husable, if_neg (show ¬ (18 : ℕ) = 0 by decide), ← padDecimal, take_padDecimal (by decide),
    drop_padDecimal (by decide), group_eq_groupDigits (isDigits_decimal _).2, List.append_assoc]
  rfl

theorem stripZerosOr0_decimal (n : ℕ) : stripZerosOr0 (decimal n) = decimal n := by
  by_cases hn : n = 0
  · subst hn
    decide
  · obtain ⟨c, s, hs, hc, -⟩ := decimal_head hn
    have hdrop : (decimal n).dropWhile (· = '0') = decimal n := by
      rw [hs, List.dropWhile_cons_of_neg (by simpa using hc)]
    rw [stripZerosOr0, hdrop, if_neg (isDigits_decimal n).1]

/-- **The balance text is the exact one.** -/
theorem formatBalance_decimal {d : ℕ} (hd : 0 < d) (v : ℕ) :
    formatBalance (decimal v) d = exactText d v := by
  rw [formatBalance, trim_decimal, if_neg (not_not.mpr (isDigits_decimal v)), ← padDecimal]
  dsimp only
  rw [take_padDecimal hd, drop_padDecimal hd, stripZerosOr0_decimal (v / 10 ^ d), exactText, if_neg hd.ne',
    if_neg hd.ne', fixedText]
  by_cases hzero : decimal v = "0"
  · have hv : v = 0 := by
      rw [← numeral_decimal v, hzero]
      rfl
    subst hv
    have hfrac : trimZeros (padDecimal d (0 % 10 ^ d)) = [] := by
      rw [trimZeros_eq_nil_iff fun c hc => isDigit_padDecimal hc, numeral_padDecimal, Nat.zero_mod]
    rw [if_pos hzero, if_pos hfrac, Nat.zero_div, hzero]
  · rw [if_neg hzero, List.append_assoc]
    rfl

/-! ## Two eras -/

/-- A ledger amount in a form that is exact: a safe number, or a text of its digits. -/
inductive Denotes : Value → ℕ → Prop
  | number {x : Number} {n : ℕ} (h : x.toSafeNat? = some n) : Denotes (.number x) n
  | text {s : Text} (h : IsDigits (trim s)) : Denotes (.string s) (numeral 10 (trim s))

/-- A known height below the one that the network switches at. -/
def BelowSwitch (registry : Registry) (height : Option Number) (network : Option Text) : Prop :=
  ∃ q, height = some (.finite q) ∧ q < baseUnitsFromHeight registry network

theorem toBigInt_of_denotes (nt : NumberText) {raw : Value} {n : ℕ} (h : Denotes raw n) :
    toBigInt nt raw = some n := by
  cases h with
  | number h => exact h
  | text h =>
    exact if_pos ⟨h, fun k hk => by cases hk⟩

theorem nativeDecimalsAt_eq_zero_iff (registry : Registry) (height : Option Number)
    (network : Option Text) :
    nativeDecimalsAt registry height network = 0 ↔ BelowSwitch registry height network := by
  have hunknown (hno : ∀ q, height ≠ some (.finite q)) : ¬ BelowSwitch registry height network := by
    rintro ⟨q, hq, -⟩
    exact hno q hq
  rcases height with _ | q | _ | negative
  · exact iff_of_false (show (18 : ℕ) ≠ 0 by decide) (hunknown fun q h => by cases h)
  · have hbelow : BelowSwitch registry (some (.finite q)) network ↔
        q < baseUnitsFromHeight registry network := by
      constructor
      · rintro ⟨q', ⟨⟩, hlt⟩
        exact hlt
      · exact fun hlt => ⟨q, rfl, hlt⟩
    rw [hbelow, nativeDecimalsAt, ← not_le]
    split
    next hle => exact iff_of_false (show (18 : ℕ) ≠ 0 by decide) (not_not.mpr hle)
    next hle => exact iff_of_true rfl hle
  · exact iff_of_false (show (18 : ℕ) ≠ 0 by decide) (hunknown fun q h => by cases h)
  · exact iff_of_false (show (18 : ℕ) ≠ 0 by decide) (hunknown fun q h => by cases h)

/-- **Below the switch amounts are whole BOING**, else base units. -/
theorem toBaseUnits_of_denotes (nt : NumberText) (registry : Registry) {raw : Value} {n : ℕ}
    (h : Denotes raw n) (height : Option Number) (network : Option Text) :
    (BelowSwitch registry height network →
      toBaseUnits nt registry raw height network = some (n * 10 ^ 18)) ∧
    (¬ BelowSwitch registry height network →
      toBaseUnits nt registry raw height network = some n) := by
  rw [← nativeDecimalsAt_eq_zero_iff, toBaseUnits, ledgerToBaseUnits, toBigInt_of_denotes nt h,
    Option.map_some]
  constructor
  · intro hzero
    rw [hzero, if_neg (by decide)]
    rfl
  · intro hne
    rw [(nativeDecimalsAt_eq_or registry height network).resolve_left hne, if_pos (by decide)]

/-! ## Agreement -/

/-- **The three texts of an amount are one**, the exact one; and an amount is in whole BOING
below the switch only. -/
theorem formatters_agree (v : ℕ) (nt : NumberText) (registry : Registry) {raw : Value} {n : ℕ}
    (h : Denotes raw n) (height : Option Number) (network : Option Text) :
    formatBoingBase v boingDecimals = formatTokenAmount v (some (.ofNat 18)) ∧
    ungroup (formatTokenAmount v (some (.ofNat 18))) = formatBalance (decimal v) 18 ∧
    ungroup (formatBalance (decimal v) 18) = formatBalance (decimal v) 18 ∧
    decimalValue (formatBalance (decimal v) 18) = some ((v : ℚ) / 10 ^ 18) ∧
    (fractionOf (formatBalance (decimal v) 18)).getLast? ≠ some '0' ∧
    (BelowSwitch registry height network →
      toBaseUnits nt registry raw height network = some (n * 10 ^ 18)) ∧
    (¬ BelowSwitch registry height network →
      toBaseUnits nt registry raw height network = some n) := by
  rw [← formatBoingBase_eq_formatTokenAmount, ungroup_formatBoingBase,
    formatBalance_decimal (by decide)]
  refine ⟨rfl, rfl, ?_, decimalValue_exactText 18 v, getLast?_fractionOf_exactText 18 v,
    toBaseUnits_of_denotes nt registry h height network⟩
  rw [← ungroup_formatBoingBase, ungroup_ungroup]

/-- 1.5 BOING, and 7 BOING of block 1049 of the testnet. -/
theorem formatters_agree_testnet :
    formatBoingBase 1500000000000000000 boingDecimals =
      formatTokenAmount (1500000000000000000 : ℕ) (some (.ofNat 18)) ∧
    toBaseUnits integersOnly Registry.empty (.string "7") (some (.finite 1049)) none =
      some (7 * 10 ^ 18) := by
  have hseven : IsDigits (trim "7") := by decide
  have h := formatters_agree 1500000000000000000 integersOnly Registry.empty (.text hseven)
    (some (.finite 1049)) none
  exact ⟨h.1, h.2.2.2.2.2.1 ⟨1049, rfl, by decide +kernel⟩⟩

end BoingObserver.NativeUnit
