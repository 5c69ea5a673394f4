import BoingObserver.NativeUnit.Config

/-!
# Loading the live configuration

`loadNativeUnitConfig` of `native-unit-live.ts`: two calls feed one registry entry,
which is rebuilt from the fallback and replaced as a whole.

* `deriveNativeUnitConfig_get`: a field is what a call reports, else the fallback's.
* `entry_of_supplied`: a field once taken from the node has an entry.
* `loads_survive_iff`: in a run, failed calls leave the fields they supplied alone
  iff each load that stores gives those fields the value they had.
-/

namespace BoingObserver.NativeUnit

open Js

/-! ## Loads -/

/-- One settled load: the answers of its two calls; `none` is a failed call. -/
structure Load where
  network : NetworkId
  info : Option Value
  policy : Option Value

def Load.infoV (l : Load) : Value := l.info.getD .null

def Load.policyV (l : Load) : Value := l.policy.getD .null

def Load.stores (l : Load) : Bool := l.infoV.truthy || l.policyV.truthy

def Load.config (l : Load) : NativeUnitConfig :=
  deriveNativeUnitConfig (some l.network.text) l.infoV l.policyV

def loadNativeUnitConfig (registry : Registry) (l : Load) :
    Registry × Option NativeUnitConfig :=
  if !l.stores then (registry, none)
  else (setNativeUnitConfig registry (some l.network.text) l.config, some l.config)

def registryAfter (loads : List Load) : Registry :=
  loads.foldl (fun registry l => (loadNativeUnitConfig registry l).1) Registry.empty

/-! ## Where fields come from -/

inductive Call
  | networkInfo
  | feePolicy
  deriving DecidableEq

inductive Field
  | baseUnitsFromHeight
  | gasPriceBaseUnits
  | executionGasFeeBps
  | extraFixedFee
  deriving DecidableEq

def NativeUnitConfig.get (cfg : NativeUnitConfig) : Field → ℕ
  | .baseUnitsFromHeight => cfg.baseUnitsFromHeight
  | .gasPriceBaseUnits => cfg.gasPriceBaseUnits
  | .executionGasFeeBps => cfg.executionGasFeeBps
  | .extraFixedFee => cfg.extraFixedFee

def Load.failed (l : Load) : Call → Bool
  | .networkInfo => l.info.isNone
  | .feePolicy => l.policy.isNone

/-- A field as `native_currency` gives it. -/
def currencyField (nc : Value) : Field → Option ℕ
  | .baseUnitsFromHeight => parseBaseUnitsFromHeight (nc.get "base_units_from_height")
  | .gasPriceBaseUnits => parseGasPrice (nc.get "gas_price_base_units")
  | .executionGasFeeBps => none
  | .extraFixedFee => none

def policyField (p : Value) : Field → Option ℕ
  | .baseUnitsFromHeight => none
  | .gasPriceBaseUnits => parseGasPrice (p.get "gas_price_base_units")
  | .executionGasFeeBps => parseBps (p.get "execution_gas_fee_bps")
  | .extraFixedFee => parseNonNegBigInt (p.get "extra_fixed_fee")

def currencyReports (nc : Value) (f : Field) : Option ℕ :=
  if isObject nc then currencyField nc f else none

def policyReports (p : Value) (f : Field) : Option ℕ :=
  if p.truthy then policyField p f else none

/-- The call that reports a field in a load, with the value. -/
def Load.reported (l : Load) (f : Field) : Option (Call × ℕ) :=
  match policyReports (feePolicyOf l.infoV l.policyV) f with
  | some v => some (if l.policyV.isNullish then .networkInfo else .feePolicy, v)
  | none => (currencyReports (l.infoV.get "native_currency") f).map fun v => (.networkInfo, v)

/-- The value reported for a field, else the fallback's. -/
def Load.valueOf (l : Load) (f : Field) : ℕ :=
  ((l.reported f).map Prod.snd).getD ((fallbackNativeUnitConfig (some l.network.text)).get f)

theorem applyNativeCurrency_get (nc : Value) (cfg : NativeUnitConfig) (f : Field) :
    (applyNativeCurrency nc cfg).1.get f = (currencyReports nc f).getD (cfg.get f) := by
  rw [applyNativeCurrency, currencyReports]
  by_cases h : isObject nc
  · rw [if_pos h, if_pos h]
    cases f <;> rfl
  · rw [if_neg h, if_neg h]
    rfl

theorem applyFeePolicy_get (p : Value) (cfg : NativeUnitConfig) (f : Field) :
    (applyFeePolicy p cfg).1.get f = (policyReports p f).getD (cfg.get f) := by
  rw [applyFeePolicy, policyReports]
  by_cases h : p.truthy
  · rw [if_pos h, if_pos h]
    cases f <;> rfl
  · rw [if_neg h, if_neg h]
    rfl

/-- A field is what the fee policy gives, else what `native_currency` gives, else the fallback's. -/
theorem get_deriveNativeUnitConfig (network : Option Text) (info policy : Value) (f : Field) :
    (deriveNativeUnitConfig network info policy).get f =
      (policyReports (feePolicyOf info policy) f).getD
        ((currencyReports (info.get "native_currency") f).getD
          ((fallbackNativeUnitConfig network).get f)) := by
  have hget : (deriveNativeUnitConfig network info policy).get f =
      (applyFeePolicy (feePolicyOf info policy)
        (applyNativeCurrency (info.get "native_currency")
          (fallbackNativeUnitConfig network)).1).1.get f := by
    cases f <;> rfl
  rw [hget, applyFeePolicy_get, applyNativeCurrency_get]

/-- **A field is what a call reports**, else the fallback's. -/
theorem deriveNativeUnitConfig_get (l : Load) (f : Field) : l.config.get f = l.valueOf f := by
  rw [Load.config, get_deriveNativeUnitConfig, Load.valueOf, Load.reported]
  cases policyReports (feePolicyOf l.infoV l.policyV) f with
  | some v => rfl
  | none =>
    cases currencyReports (l.infoV.get "native_currency") f with
    | some v => rfl
    | none => rfl

theorem truthy_of_get {v : Value} {k : Text} (h : v.get k ≠ .undefined) : v.truthy = true := by
  cases v with
  | object fields => rfl
  | undefined => exact absurd rfl h
  | null => exact absurd rfl h
  | bool b => exact absurd rfl h
  | number x => exact absurd rfl h
  | string s => exact absurd rfl h
  | array items => exact absurd rfl h

theorem Load.stores_of_reported {l : Load} {f : Field} {r : Call × ℕ}
    (h : l.reported f = some r) : l.stores = true := by
  rw [Load.reported] at h
  rw [Load.stores, Bool.or_eq_true]
  cases hp : policyReports (feePolicyOf l.infoV l.policyV) f with
  | some v =>
    rw [policyReports] at hp
    split at hp
    next ht =>
      rw [feePolicyOf, Value.orElse] at ht
      split at ht
      · refine Or.inl (truthy_of_get (k := "treasury") ?_)
        intro he
        rw [he] at ht
        cases ht
      · exact Or.inr ht
    next => cases hp
  | none =>
    rw [hp] at h
    obtain ⟨v, hv, -⟩ := Option.map_eq_some_iff.mp h
    rw [currencyReports] at hv
    split at hv
    next ho =>
      refine Or.inl (truthy_of_get (k := "native_currency") ?_)
      intro he
      rw [he] at ho
      cases ho
    next => cases hv

/-! ## One load -/

theorem load_other (registry : Registry) (l : Load) {network : NetworkId}
    (h : network ≠ l.network) : (loadNativeUnitConfig registry l).1 network = registry network := by
  rw [loadNativeUnitConfig]
  split
  · rfl
  · refine (setNativeUnitConfig_apply _ _ _ _).trans ?_
    rw [key_text]
    exact if_neg h

theorem load_stored (registry : Registry) {l : Load} (h : l.stores = true) :
    (loadNativeUnitConfig registry l).1 l.network = some l.config := by
  rw [loadNativeUnitConfig, h]
  refine (setNativeUnitConfig_apply _ _ _ _).trans ?_
  rw [key_text]
  exact if_pos rfl

theorem load_unstored (registry : Registry) {l : Load} (h : l.stores = false) :
    (loadNativeUnitConfig registry l).1 = registry := by
  rw [loadNativeUnitConfig, h]
  rfl

/-! ## Runs -/

theorem registryAfter_concat (earlier : List Load) (l : Load) :
    registryAfter (earlier ++ [l]) = (loadNativeUnitConfig (registryAfter earlier) l).1 := by
  rw [registryAfter, List.foldl_append]
  rfl

/-- An earlier load of the network took the field from the call. -/
def Supplied (earlier : List Load) (network : NetworkId) (f : Field) (c : Call) : Prop :=
  ∃ l ∈ earlier, l.network = network ∧ ∃ v, l.reported f = some (c, v)

/-- **A field once taken from the node has an entry.** -/
theorem entry_of_supplied {loads : List Load} {network : NetworkId} {f : Field} {c : Call}
    (h : Supplied loads network f c) : ∃ cfg, registryAfter loads network = some cfg := by
  induction loads using List.reverseRecOn with
  | nil =>
    obtain ⟨l, hl, -⟩ := h
    cases hl
  | append_singleton earlier last ih =>
    rw [registryAfter_concat]
    obtain ⟨l, hl, hn, v, hv⟩ := h
    rcases List.mem_append.mp hl with hl | hl
    · obtain ⟨cfg, hcfg⟩ := ih ⟨l, hl, hn, v, hv⟩
      by_cases hlast : network = last.network
      · cases hs : last.stores with
        | true => exact ⟨last.config, by rw [hlast]; exact load_stored _ hs⟩
        | false => exact ⟨cfg, by rw [load_unstored _ hs]; exact hcfg⟩
      · exact ⟨cfg, (load_other _ _ hlast).trans hcfg⟩
    · obtain rfl := List.mem_singleton.mp hl
      refine ⟨l.config, ?_⟩
      rw [← hn]
      exact load_stored _ (Load.stores_of_reported hv)

def entryField (registry : Registry) (network : NetworkId) (f : Field) : Option ℕ :=
  (registry network).map fun cfg => cfg.get f

/-- The load leaves alone every field that a call supplied which fails in it. -/
def Survives (earlier : List Load) (l : Load) : Prop :=
  ∀ f c, Supplied earlier l.network f c → l.failed c = true →
    entryField (registryAfter (earlier ++ [l])) l.network f =
      entryField (registryAfter earlier) l.network f

/-- If the load stores an entry, then every field that a call supplied which fails in it has the
value that the other call reports, or the fallback's where that one reports none. -/
def Keeps (earlier : List Load) (l : Load) : Prop :=
  l.stores = true → ∀ f c, Supplied earlier l.network f c → l.failed c = true →
    entryField (registryAfter earlier) l.network f = some (l.valueOf f)

theorem survives_iff (earlier : List Load) (l : Load) : Survives earlier l ↔ Keeps earlier l := by
  cases hs : l.stores with
  | false =>
    have hsame : registryAfter (earlier ++ [l]) = registryAfter earlier := by
      rw [registryAfter_concat, load_unstored _ hs]
    refine iff_of_true ?_ ?_
    · intro f c _ _
      rw [hsame]
    · intro h
      rw [hs] at h
      cases h
  | true =>
    have hnew : ∀ f, entryField (registryAfter (earlier ++ [l])) l.network f =
        some (l.valueOf f) := by
      intro f
      rw [registryAfter_concat, entryField, load_stored _ hs, Option.map_some,
        deriveNativeUnitConfig_get]
    constructor
    · intro h _ f c hsup hfail
      rw [← h f c hsup hfail, hnew]
    · intro h f c hsup hfail
      rw [h hs f c hsup hfail, hnew]

/-- **Failed reloads in a run**: the fields they supplied survive iff every load keeps them; and no
load touches another network's entry. -/
theorem loads_survive_iff (loads : List Load) :
    ((∀ earlier l, earlier ++ [l] <+: loads → Survives earlier l) ↔
      ∀ earlier l, earlier ++ [l] <+: loads → Keeps earlier l) ∧
    ∀ earlier l, earlier ++ [l] <+: loads → ∀ network, network ≠ l.network →
      registryAfter (earlier ++ [l]) network = registryAfter earlier network := by
  refine ⟨forall₃_congr fun earlier l _ => survives_iff earlier l, ?_⟩
  intro earlier l _ network h
  rw [registryAfter_concat]
  exact load_other _ _ h

def switchLoad : Load where
  network := .testnet
  info := some (.object [("native_currency",
    .object [("base_units_from_height", .number (.ofNat 2000))])])
  policy := some (.object [("execution_gas_fee_bps", .number (.ofNat 100))])

def halfLoad : Load := { switchLoad with info := none }

/-- **A failed info call moves the switch** from 2000 back to 1050. -/
theorem halfLoad_resets :
    Supplied [switchLoad] .testnet .baseUnitsFromHeight .networkInfo ∧
      halfLoad.failed .networkInfo = true ∧
      entryField (registryAfter [switchLoad]) .testnet .baseUnitsFromHeight = some 2000 ∧
      entryField (registryAfter [switchLoad, halfLoad]) .testnet .baseUnitsFromHeight =
        some 1050 := by
  refine ⟨⟨switchLoad, List.mem_singleton_self _, rfl, 2000, ?_⟩, rfl, ?_, ?_⟩
  · decide +kernel
  · decide +kernel
  · decide +kernel

end BoingObserver.NativeUnit
