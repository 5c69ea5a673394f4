import BoingObserver.Js.Coerce

/-!
# The native unit configuration

`native-unit-config.ts`: per network, from which height amounts are in base units
and what the fee schedule is.  A configuration is derived from what the node
answered, over the constants of a fallback, and held in a registry.
-/

namespace BoingObserver.NativeUnit

open Js

inductive NetworkId
  | testnet
  | mainnet
  deriving DecidableEq

def NetworkId.text : NetworkId → Text
  | .testnet => "testnet"
  | .mainnet => "mainnet"

inductive NativeUnitConfigSource
  | live
  | fallback
  deriving DecidableEq

structure NativeUnitConfig where
  /-- First height whose native amounts are in base units (0 = base units from genesis). -/
  baseUnitsFromHeight : ℕ
  gasPriceBaseUnits : ℕ
  /-- Execution gas fee as bps of the full schedule (10_000 = full, 0 = waived). -/
  executionGasFeeBps : ℕ
  /-- Flat fee added to every tx (base units). -/
  extraFixedFee : ℕ
  source : NativeUnitConfigSource
  deriving DecidableEq

def defaultGasPriceBaseUnits : ℕ := 1000000000000

def defaultExecutionGasFeeBps : ℕ := 100

def defaultTestnetBaseUnitsFromHeight : ℕ := 1050

/-- The network a registry entry is kept under; every name but one is the testnet's. -/
def key (network : Option Text) : NetworkId :=
  if network = some "mainnet" then .mainnet else .testnet

@[simp] theorem key_text (network : NetworkId) : key (some network.text) = network := by
  cases network with
  | testnet => decide
  | mainnet => decide

def fallbackNativeUnitConfig (network : Option Text) : NativeUnitConfig where
  baseUnitsFromHeight :=
    if network = some "mainnet" then 0 else defaultTestnetBaseUnitsFromHeight
  gasPriceBaseUnits := defaultGasPriceBaseUnits
  executionGasFeeBps := defaultExecutionGasFeeBps
  extraFixedFee := 0
  source := .fallback

/-! ## Deriving a configuration -/

/-- The decimal digits of a text, at least one and up to `limit` of them. -/
def digits? (limit : Option ℕ) (s : Text) : Option ℕ :=
  if IsDigits s ∧ (∀ n ∈ limit, s.length ≤ n) then some (numeral 10 s) else none

def parseNonNegBigInt (raw : Value) : Option ℕ :=
  match raw with
  | .number x => x.toSafeNat?
  | .string s => digits? (some 39) (trim s)
  | _ => none

def parseBps (raw : Value) : Option ℕ :=
  match raw with
  | .number (.finite q) => if 0 ≤ q then some (min 10000 ⌊q⌋.toNat) else none
  | _ => none

/-- `typeof v === "object"` and not `null`. -/
def isObject : Value → Bool
  | .array _ => true
  | .object _ => true
  | _ => false

/-- A positive gas price, from `native_currency` or a fee policy. -/
def parseGasPrice (raw : Value) : Option ℕ := (parseNonNegBigInt raw).filter (0 < ·)

/-- `native_currency.base_units_from_height`; `null` means base units from genesis. -/
def parseBaseUnitsFromHeight (raw : Value) : Option ℕ :=
  match raw with
  | .null => some 0
  | .number x => x.toSafeNat?
  | _ => none

/-- The configuration with what `native_currency` reports, and whether it reports anything. -/
def applyNativeCurrency (nc : Value) (cfg : NativeUnitConfig) : NativeUnitConfig × Bool :=
  if isObject nc then
    let height := parseBaseUnitsFromHeight (nc.get "base_units_from_height")
    let gp := parseGasPrice (nc.get "gas_price_base_units")
    ({ cfg with
        baseUnitsFromHeight := height.getD cfg.baseUnitsFromHeight
        gasPriceBaseUnits := gp.getD cfg.gasPriceBaseUnits },
      height.isSome || gp.isSome)
  else (cfg, false)

/-- The configuration with what a fee policy reports; only the bps make it live. -/
def applyFeePolicy (p : Value) (cfg : NativeUnitConfig) : NativeUnitConfig × Bool :=
  if p.truthy then
    let bps := parseBps (p.get "execution_gas_fee_bps")
    let gp := parseGasPrice (p.get "gas_price_base_units")
    let fixed := parseNonNegBigInt (p.get "extra_fixed_fee")
    ({ cfg with
        executionGasFeeBps := bps.getD cfg.executionGasFeeBps
        gasPriceBaseUnits := gp.getD cfg.gasPriceBaseUnits
        extraFixedFee := fixed.getD cfg.extraFixedFee },
      bps.isSome)
  else (cfg, false)

/-- The fee policy in force: the one answered, else the one in the network info. -/
def feePolicyOf (info policy : Value) : Value :=
  policy.orElse ((info.get "treasury").get "fee_policy")

/-- Merge whatever the node reported over the fallback. -/
def deriveNativeUnitConfig (network : Option Text) (info policy : Value) : NativeUnitConfig :=
  let (cfg, byCurrency) :=
    applyNativeCurrency (info.get "native_currency") (fallbackNativeUnitConfig network)
  let (cfg, byPolicy) := applyFeePolicy (feePolicyOf info policy) cfg
  { cfg with source := if byCurrency || byPolicy then .live else .fallback }

/-! ## The registry -/

abbrev Registry : Type := NetworkId → Option NativeUnitConfig

def Registry.empty : Registry := fun _ => none

def getNativeUnitConfig (registry : Registry) (network : Option Text) : NativeUnitConfig :=
  (registry (key network)).getD (fallbackNativeUnitConfig (some (key network).text))

def setNativeUnitConfig (registry : Registry) (network : Option Text) (cfg : NativeUnitConfig) :
    Registry :=
  fun k => if k = key network then some cfg else registry k

theorem setNativeUnitConfig_apply (registry : Registry) (network : Option Text)
    (cfg : NativeUnitConfig) (k : NetworkId) :
    setNativeUnitConfig registry network cfg k =
      if k = key network then some cfg else registry k := rfl

end BoingObserver.NativeUnit
