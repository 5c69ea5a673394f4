import BoingObserver.NativeUnit.Config

/-!
# Amounts in base units

`native-unit.ts`: an amount committed at a height is in whole BOING below the
network's switch height and in base units from it.
-/

namespace BoingObserver.NativeUnit

open Js

def boingDecimals : ℕ := 18

def baseUnitsPerBoing : ℕ := 1000000000000000000

section

variable (nt : NumberText) (registry : Registry)

def baseUnitsFromHeight (network : Option Text) : ℕ :=
  (getNativeUnitConfig registry network).baseUnitsFromHeight

/-- Ledger decimals of amounts committed at a height; a height that is unknown or no finite
number is in base units. -/
def nativeDecimalsAt (height : Option Number) (network : Option Text) : ℕ :=
  match height with
  | some (.finite q) => if (baseUnitsFromHeight registry network : ℚ) ≤ q then 18 else 0
  | _ => 18

def toBigInt (raw : Value) : Option ℕ :=
  match raw with
  | .number x => x.toSafeNat?
  | raw => digits? none (trim (nt.stringOf (raw.orElse (.string []))))

/-- Ledger amount with `decimals` (0 or 18), in base units. -/
def ledgerToBaseUnits (raw : Value) (decimals : ℕ) : Option ℕ :=
  (toBigInt nt raw).map fun v => if boingDecimals ≤ decimals then v else v * baseUnitsPerBoing

/-- Ledger amount committed at a height, in base units. -/
def toBaseUnits (raw : Value) (height : Option Number) (network : Option Text) : Option ℕ :=
  ledgerToBaseUnits nt raw (nativeDecimalsAt registry height network)

end

section

variable {nt : NumberText} {registry : Registry}

theorem nativeDecimalsAt_eq_or (registry : Registry) (height : Option Number)
    (network : Option Text) :
    nativeDecimalsAt registry height network = 0 ∨
      nativeDecimalsAt registry height network = 18 := by
  rcases height with _ | q | _ | negative
  · exact Or.inr rfl
  · by_cases h : (baseUnitsFromHeight registry network : ℚ) ≤ q
    · exact Or.inr (if_pos h)
    · exact Or.inl (if_neg h)
  · exact Or.inr rfl
  · exact Or.inr rfl

theorem nativeDecimalsAt_antitone {network network' : Option Text}
    (h : baseUnitsFromHeight registry network ≤ baseUnitsFromHeight registry network')
    (height : Option Number) :
    nativeDecimalsAt registry height network' ≤ nativeDecimalsAt registry height network := by
  have hq : (baseUnitsFromHeight registry network : ℚ) ≤ baseUnitsFromHeight registry network' :=
    Nat.cast_le.mpr h
  rcases height with _ | q | _ | negative
  · exact le_rfl
  · by_cases hle : (baseUnitsFromHeight registry network' : ℚ) ≤ q
    · rw [nativeDecimalsAt, nativeDecimalsAt, if_pos hle, if_pos (hq.trans hle)]
    · rw [nativeDecimalsAt, if_neg hle]
      exact Nat.zero_le _
  · exact le_rfl
  · exact le_rfl

theorem ledgerToBaseUnits_getD (raw : Value) (decimals : ℕ) :
    (ledgerToBaseUnits nt raw decimals).getD 0 =
      if boingDecimals ≤ decimals then (toBigInt nt raw).getD 0
      else (toBigInt nt raw).getD 0 * baseUnitsPerBoing := by
  rw [ledgerToBaseUnits]
  cases toBigInt nt raw with
  | none => simp
  | some v => simp

theorem toBaseUnits_mono {height : Option Number} {network network' : Option Text} (raw : Value)
    (h : nativeDecimalsAt registry height network' ≤ nativeDecimalsAt registry height network) :
    (toBaseUnits nt registry raw height network).getD 0 ≤
      (toBaseUnits nt registry raw height network').getD 0 := by
  rw [toBaseUnits, toBaseUnits, ledgerToBaseUnits_getD, ledgerToBaseUnits_getD]
  have hone : (toBigInt nt raw).getD 0 ≤ (toBigInt nt raw).getD 0 * baseUnitsPerBoing :=
    Nat.le_mul_of_pos_right _ (by decide)
  split
  · split
    · exact le_rfl
    · exact hone
  next hlt =>
    rw [if_neg (by omega)]

theorem eq_mul_baseUnitsPerBoing_iff {n : ℕ} : n = n * baseUnitsPerBoing ↔ n = 0 := by
  rw [baseUnitsPerBoing]
  omega

/-- **Two networks agree on an amount** iff it is zero or they agree on the unit. -/
theorem toBaseUnits_eq_iff {height : Option Number} {network network' : Option Text}
    (raw : Value) :
    (toBaseUnits nt registry raw height network).getD 0 =
        (toBaseUnits nt registry raw height network').getD 0 ↔
      ((toBigInt nt raw).getD 0 ≠ 0 →
        nativeDecimalsAt registry height network = nativeDecimalsAt registry height network') := by
  rw [toBaseUnits, toBaseUnits, ledgerToBaseUnits_getD, ledgerToBaseUnits_getD]
  generalize (toBigInt nt raw).getD 0 = n
  rcases nativeDecimalsAt_eq_or registry height network with h | h
  · rcases nativeDecimalsAt_eq_or registry height network' with h' | h'
    · rw [h, h']
      exact iff_of_true rfl fun _ => rfl
    · rw [h, h', if_neg (by decide), if_pos (by decide), eq_comm, eq_mul_baseUnitsPerBoing_iff]
      simp
  · rcases nativeDecimalsAt_eq_or registry height network' with h' | h'
    · rw [h, h', if_pos (by decide), if_neg (by decide), eq_mul_baseUnitsPerBoing_iff]
      simp
    · rw [h, h']
      exact iff_of_true rfl fun _ => rfl

end

end BoingObserver.NativeUnit
