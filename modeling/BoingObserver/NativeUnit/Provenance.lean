import BoingObserver.NativeUnit.Live

/-!
# Where a configuration says it is from

The `source` of `deriveNativeUnitConfig` in `native-unit-config.ts`, beside the values
themselves: four values from two answers, of which a fee policy gives three.

* `get_eq_getD_taken`: a value is the one taken from the answers, else the fallback's.
* `source_eq_live_iff`: only three of the five fields make the source `live`.
* `honestSource_iff`: when the source is honest.
-/

namespace BoingObserver.NativeUnit

open Js

/-! ## Values taken from the answers -/

def taken (info policy : Value) (f : Field) : Option ℕ :=
  (policyReports (feePolicyOf info policy) f).or (currencyReports (info.get "native_currency") f)

/-- A field that is reported beside the flag: those of `native_currency`, and the bps. -/
def Flagged (info policy : Value) : Prop :=
  (currencyReports (info.get "native_currency") .baseUnitsFromHeight).isSome ∨
    (currencyReports (info.get "native_currency") .gasPriceBaseUnits).isSome ∨
    (policyReports (feePolicyOf info policy) .executionGasFeeBps).isSome

/-- A field that is reported without the flag: the other two of a fee policy. -/
def Unflagged (info policy : Value) : Prop :=
  (policyReports (feePolicyOf info policy) .gasPriceBaseUnits).isSome ∨
    (policyReports (feePolicyOf info policy) .extraFixedFee).isSome

/-- The source says whether any value was taken from the answers, and without any the values are
the fallback's. -/
def HonestSource (network : Option Text) (info policy : Value) : Prop :=
  ((deriveNativeUnitConfig network info policy).source = .live ↔
      ∃ f, (taken info policy f).isSome) ∧
    ((deriveNativeUnitConfig network info policy).source = .fallback → ∀ f,
      (deriveNativeUnitConfig network info policy).get f =
        (fallbackNativeUnitConfig network).get f)

section

variable (network : Option Text) (info policy : Value)

/-- **A value is the one taken from the answers**, else the fallback's. -/
theorem get_eq_getD_taken (f : Field) : (deriveNativeUnitConfig network info policy).get f =
    (taken info policy f).getD ((fallbackNativeUnitConfig network).get f) := by
  rw [get_deriveNativeUnitConfig, taken]
  cases policyReports (feePolicyOf info policy) f with
  | some v => rfl
  | none => rfl

theorem applyNativeCurrency_snd (nc : Value) (cfg : NativeUnitConfig) :
    (applyNativeCurrency nc cfg).2 = true ↔
      (currencyReports nc .baseUnitsFromHeight).isSome ∨
        (currencyReports nc .gasPriceBaseUnits).isSome := by
  rw [applyNativeCurrency, currencyReports, currencyReports]
  by_cases h : isObject nc
  · rw [if_pos h, if_pos h, if_pos h]
    exact Bool.or_eq_true_iff
  · rw [if_neg h, if_neg h, if_neg h]
    simp

theorem applyFeePolicy_snd (p : Value) (cfg : NativeUnitConfig) :
    (applyFeePolicy p cfg).2 = true ↔ (policyReports p .executionGasFeeBps).isSome := by
  rw [applyFeePolicy, policyReports]
  by_cases h : p.truthy
  · rw [if_pos h, if_pos h]
    exact Iff.rfl
  · rw [if_neg h, if_neg h]
    simp

/-- **Three fields make the source `live`.** -/
theorem source_eq_live_iff :
    (deriveNativeUnitConfig network info policy).source = .live ↔ Flagged info policy := by
  have hsource : (deriveNativeUnitConfig network info policy).source = .live ↔
      ((applyNativeCurrency (info.get "native_currency") (fallbackNativeUnitConfig network)).2 ||
        (applyFeePolicy (feePolicyOf info policy)
          (applyNativeCurrency (info.get "native_currency")
            (fallbackNativeUnitConfig network)).1).2) = true := by
    rw [deriveNativeUnitConfig]
    dsimp only
    split
    next h => exact iff_of_true rfl h
    next h => exact iff_of_false (by simp) h
  rw [hsource, Bool.or_eq_true, applyNativeCurrency_snd, applyFeePolicy_snd, Flagged, or_assoc]

theorem isSome_taken_iff (f : Field) : (taken info policy f).isSome ↔
    (policyReports (feePolicyOf info policy) f).isSome ∨
      (currencyReports (info.get "native_currency") f).isSome := by
  rw [taken, Option.isSome_or, Bool.or_eq_true]

theorem exists_taken_iff : (∃ f, (taken info policy f).isSome) ↔
    Flagged info policy ∨ Unflagged info policy := by
  constructor
  · rintro ⟨f, hf⟩
    rcases (isSome_taken_iff info policy f).mp hf with hp | hc
    · cases f with
      | baseUnitsFromHeight =>
        rw [policyReports] at hp
        split at hp <;> cases hp
      | gasPriceBaseUnits => exact Or.inr (Or.inl hp)
      | executionGasFeeBps => exact Or.inl (Or.inr (Or.inr hp))
      | extraFixedFee => exact Or.inr (Or.inr hp)
    · cases f with
      | baseUnitsFromHeight => exact Or.inl (Or.inl hc)
      | gasPriceBaseUnits => exact Or.inl (Or.inr (Or.inl hc))
      | executionGasFeeBps =>
        rw [currencyReports] at hc
        split at hc <;> cases hc
      | extraFixedFee =>
        rw [currencyReports] at hc
        split at hc <;> cases hc
  · rintro ((h | h | h) | h | h)
    · exact ⟨.baseUnitsFromHeight, (isSome_taken_iff _ _ _).mpr (Or.inr h)⟩
    · exact ⟨.gasPriceBaseUnits, (isSome_taken_iff _ _ _).mpr (Or.inr h)⟩
    · exact ⟨.executionGasFeeBps, (isSome_taken_iff _ _ _).mpr (Or.inl h)⟩
    · exact ⟨.gasPriceBaseUnits, (isSome_taken_iff _ _ _).mpr (Or.inl h)⟩
    · exact ⟨.extraFixedFee, (isSome_taken_iff _ _ _).mpr (Or.inl h)⟩

end

/-- **The source is honest** iff a gas price or fixed fee of the policy never comes alone. -/
theorem honestSource_iff (network : Option Text) (info policy : Value) :
    HonestSource network info policy ↔ (Unflagged info policy → Flagged info policy) := by
  rw [HonestSource, source_eq_live_iff, exists_taken_iff]
  constructor
  · rintro ⟨hlive, -⟩ hunflagged
    exact hlive.mpr (Or.inr hunflagged)
  · intro h
    refine ⟨⟨Or.inl, fun htaken => htaken.elim id h⟩, fun hfallback f => ?_⟩
    have hflagged : ¬ Flagged info policy := by
      rw [← source_eq_live_iff network, hfallback]
      decide
    have hnone : taken info policy f = none := by
      rw [← Option.not_isSome_iff_eq_none]
      intro hsome
      exact hflagged (((exists_taken_iff info policy).mp ⟨f, hsome⟩).elim id h)
    rw [get_eq_getD_taken, hnone, Option.getD_none]

/-- **A gas price of the policy alone is taken as the fallback's.** -/
theorem policyGasPrice_not_honest : ¬ HonestSource (some "testnet") .null
    (.object [("gas_price_base_units", .string "2000000000000")]) := by
  rintro ⟨-, hfallback⟩
  have hprice := hfallback (by decide +kernel) .gasPriceBaseUnits
  exact absurd hprice (by decide +kernel)

end BoingObserver.NativeUnit
