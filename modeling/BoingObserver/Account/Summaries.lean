import BoingObserver.Account.Scan
import BoingObserver.NativeUnit.Short

/-!
# Summaries of the account history

The summaries that `collectAccountTxHistory` gives, against `getTxPayloadSummary` for a
network, as the block page shows it.

The scan names no network, so its amounts are in the unit of the testnet.

* `summary_eq_iff`: two networks give one summary iff they write its amount in one way.
* `history_summary_iff`: when a row has the summary of its network.
-/

namespace BoingObserver.Account

open Js Rpc Payload Deploy NativeUnit

/-! ## The amount of a summary -/

def shownAmount (nt : NumberText) (payload : Value) : Option Value :=
  let p := getTxPayloadInner payload
  match getTxPayloadKind payload with
  | .known .transfer | .known .bond | .known .unbond => some (p.get "amount")
  | .known .contractCall => (contractCallValue nt p).map .string
  | .known .batch => (batchCallValueTotal (batchSteps nt p)).map .string
  | _ => none

/-- The summary of the payload shows a number of BOING other than zero. -/
def ShowsBoing (platform : Platform) (payload : Value) : Prop :=
  ∃ raw n, shownAmount platform.numberText payload = some raw ∧
    toBigInt platform.numberText (.string (fieldText platform raw)) = some n ∧ n ≠ 0

section

variable {platform : Platform} {registry : Registry} {height : Option Number}
  {network network' : Option Text}

theorem boingText_eq_iff (raw : Value) :
    boingText platform registry height network raw =
        boingText platform registry height network' raw ↔
      ∀ n, toBigInt platform.numberText (.string (fieldText platform raw)) = some n → n ≠ 0 →
        nativeDecimalsAt registry height network = nativeDecimalsAt registry height network' := by
  rw [boingText, boingText, List.append_left_inj]
  exact short_compactBoingAt_eq_iff _

theorem sendsText_eq_iff {boing boing' : Value → Text} (v : Option Text) :
    sendsText boing v = sendsText boing' v ↔
      ∀ raw, v.map Value.string = some raw → boing raw = boing' raw := by
  cases v with
  | none => exact iff_of_true rfl fun raw h => by cases h
  | some v =>
    have hsends : sendsText boing (some v) = sendsText boing' (some v) ↔
        boing (.string v) = boing' (.string v) := List.append_right_inj _
    rw [hsends]
    constructor
    · rintro h raw ⟨⟩
      exact h
    · intro h
      exact h _ rfl

section

variable (platform : Platform) {boing boing' : Value → Text} (p : Fields)

theorem transferSummary_eq_iff :
    callSummary platform boing p .transfer = callSummary platform boing' p .transfer ↔
      boing (p.get "amount") = boing' (p.get "amount") := by
  have hread (boing : Value → Text) : callSummary platform boing p .transfer =
      "to " ++ formatShortAddr platform.numberText (p.get "to") ++ " · " ++
        boing (p.get "amount") := rfl
  rw [hread, hread, List.append_right_inj]

theorem bondSummary_eq_iff :
    callSummary platform boing p .bond = callSummary platform boing' p .bond ↔
      boing (p.get "amount") = boing' (p.get "amount") := by
  have hread (boing : Value → Text) : callSummary platform boing p .bond =
      boing (p.get "amount") ++ " stake" := rfl
  rw [hread, hread, List.append_left_inj]

theorem unbondSummary_eq_iff :
    callSummary platform boing p .unbond = callSummary platform boing' p .unbond ↔
      boing (p.get "amount") = boing' (p.get "amount") := by
  have hread (boing : Value → Text) : callSummary platform boing p .unbond =
      "unbond " ++ boing (p.get "amount") := rfl
  rw [hread, hread, List.append_right_inj]

theorem contractCallSummary_eq_iff :
    callSummary platform boing p .contractCall = callSummary platform boing' p .contractCall ↔
      ∀ raw, (contractCallValue platform.numberText p).map Value.string = some raw →
        boing raw = boing' raw := by
  have hread (boing : Value → Text) : callSummary platform boing p .contractCall =
      "contract " ++ formatShortAddr platform.numberText (p.get "contract") ++
        sendsText boing (contractCallValue platform.numberText p) := rfl
  rw [hread, hread, List.append_right_inj]
  exact sendsText_eq_iff _

theorem batchSummary_eq_iff :
    callSummary platform boing p .batch = callSummary platform boing' p .batch ↔
      ∀ raw, (batchCallValueTotal (batchSteps platform.numberText p)).map Value.string = some raw →
        boing raw = boing' raw := by
  have hread (boing : Value → Text) : callSummary platform boing p .batch =
      "batch · " ++ decimal (batchSteps platform.numberText p).length ++ " step" ++
        (if (batchSteps platform.numberText p).length = 1 then "" else "s") ++
        sendsText boing (batchCallValueTotal (batchSteps platform.numberText p)) := rfl
  rw [hread, hread, List.append_right_inj]
  exact sendsText_eq_iff _

theorem callSummary_congr {kind : PayloadVariant}
    (h : kind ∉ [.transfer, .bond, .unbond, .contractCall, .batch]) :
    callSummary platform boing p kind = callSummary platform boing' p kind := by
  cases kind with
  | transfer => exact absurd (by decide) h
  | bond => exact absurd (by decide) h
  | unbond => exact absurd (by decide) h
  | contractCall => exact absurd (by decide) h
  | batch => exact absurd (by decide) h
  | _ => rfl

end

theorem forall_eq_some_iff {v : Value} {f g : Value → Text} :
    (∀ raw, some v = some raw → f raw = g raw) ↔ f v = g v :=
  ⟨fun h => h v rfl, fun h _ hraw => Option.some.inj hraw ▸ h⟩

/-- **Two networks give one summary** iff they write its amount in one way. -/
theorem summary_eq_iff (payload : Value) :
    getTxPayloadSummary platform registry payload height network =
        getTxPayloadSummary platform registry payload height network' ↔
      ∀ raw, shownAmount platform.numberText payload = some raw →
        boingText platform registry height network raw =
          boingText platform registry height network' raw := by
  unfold getTxPayloadSummary shownAmount
  cases getTxPayloadKind payload with
  | unknown => exact iff_of_true rfl fun raw h => by cases h
  | inherited => exact iff_of_true rfl fun raw h => by cases h
  | known kind =>
    cases kind with
    | transfer => exact (transferSummary_eq_iff platform _).trans forall_eq_some_iff.symm
    | bond => exact (bondSummary_eq_iff platform _).trans forall_eq_some_iff.symm
    | unbond => exact (unbondSummary_eq_iff platform _).trans forall_eq_some_iff.symm
    | contractCall => exact contractCallSummary_eq_iff platform _
    | batch => exact batchSummary_eq_iff platform _
    | _ =>
      exact iff_of_true (congrArg (Option.getD _) (callSummary_congr platform _ (by decide)))
        fun raw h => by cases h

end

/-! ## The history of a network -/

/-- The height is on the same side of the testnet's switch height and of the network's. -/
def UnitsAgree (registry : Registry) (network : NetworkId) (height : ℚ) : Prop :=
  (baseUnitsFromHeight registry (some NetworkId.testnet.text) : ℚ) ≤ height ↔
    (baseUnitsFromHeight registry (some network.text) : ℚ) ≤ height

theorem unitsAgree_testnet (registry : Registry) (height : ℚ) :
    UnitsAgree registry .testnet height := Iff.rfl

section

variable {platform : Platform} {registry : Registry} {network : NetworkId} {height : ℚ}

/-- Without a network the unit is the testnet's. -/
theorem nativeDecimalsAt_eq_iff : nativeDecimalsAt registry (some (.finite height)) none =
      nativeDecimalsAt registry (some (.finite height)) (some network.text) ↔
    UnitsAgree registry network height := by
  have hnone : baseUnitsFromHeight registry none =
      baseUnitsFromHeight registry (some NetworkId.testnet.text) := rfl
  rw [nativeDecimalsAt, nativeDecimalsAt, hnone, UnitsAgree]
  by_cases htestnet : (baseUnitsFromHeight registry (some NetworkId.testnet.text) : ℚ) ≤ height
  · rw [if_pos htestnet, iff_true_left htestnet]
    by_cases hnetwork : (baseUnitsFromHeight registry (some network.text) : ℚ) ≤ height
    · rw [if_pos hnetwork, iff_true_right hnetwork]
    · rw [if_neg hnetwork]
      exact iff_of_false (by decide) hnetwork
  · rw [if_neg htestnet, iff_false_left htestnet]
    by_cases hnetwork : (baseUnitsFromHeight registry (some network.text) : ℚ) ≤ height
    · rw [if_pos hnetwork]
      exact iff_of_false (by decide) (not_not.mpr hnetwork)
    · rw [if_neg hnetwork]
      exact iff_of_true rfl hnetwork

/-- **The summary without a network is that of the network** iff it shows no BOING or the units
agree. -/
theorem summary_none_eq_iff (payload : Value) :
    getTxPayloadSummary platform registry payload (some (.finite height)) none =
        getTxPayloadSummary platform registry payload (some (.finite height))
          (some network.text) ↔
      (ShowsBoing platform payload → UnitsAgree registry network height) := by
  rw [summary_eq_iff]
  constructor
  · rintro h ⟨raw, n, hraw, hn, hn0⟩
    exact nativeDecimalsAt_eq_iff.mp ((boingText_eq_iff raw).mp (h raw hraw) n hn hn0)
  · intro h raw hraw
    refine (boingText_eq_iff raw).mpr fun n hn hn0 => nativeDecimalsAt_eq_iff.mpr ?_
    exact h ⟨raw, n, hraw, hn, hn0⟩

end

/-- **The history of an account shows a transaction as its network does** iff its summary shows
no BOING or the units agree at its height. -/
theorem history_summary_iff (platform : Platform) (registry : Registry) (sdk : Sdk)
    (network : NetworkId) {account64 : Text} (hword : isAnyWord account64 = true)
    {blocks : List ScanBlock} {block : ScanBlock} (hblock : block ∈ blocks) {i : ℕ} {tx : ScanTx}
    (htx : block.txs[i]? = some (some tx))
    (hrole : rolesForAccountInTx platform.numberText sdk account64 tx (block.receiptAt i) ≠ [])
    (hok : ¬ isFailed ((block.receiptAt i).get "success")) :
    ∃ row ∈ collectAccountTxHistory platform registry sdk account64 blocks,
      row.place = (block.height, (i : ℚ)) ∧
        (row.summary = getTxPayloadSummary platform registry tx.payload
            (some (.finite block.height)) (some network.text) ↔
          (ShowsBoing platform tx.payload → UnitsAgree registry network block.height)) := by
  have hrole' : rolesForAccountInTx platform.numberText sdk (toLowerCase account64) tx
      (block.receiptAt i) ≠ [] := by
    rw [rolesForAccountInTx_toLowerCase]
    exact hrole
  obtain ⟨row, hrow, hsummary⟩ : ∃ row,
      scanItem platform registry sdk (toLowerCase account64) block tx i = some row ∧
        row.summary = getTxPayloadSummary platform registry tx.payload
          (some (.finite block.height)) none := by
    rw [scanItem, if_neg hrole', if_neg hok]
    exact ⟨_, rfl, rfl⟩
  refine ⟨row, (mem_collectAccountTxHistory hword).mpr ⟨block, hblock, i, tx, htx, hrow⟩,
    (scanItem_eq_some hrow).1, ?_⟩
  rw [hsummary]
  exact summary_none_eq_iff tx.payload

/-! ## A bond on the mainnet -/

open TwoBlocks in
theorem history_summary_twoBlocks :
    ∃ row ∈ collectAccountTxHistory platform Registry.empty sdk wallet blocks,
      row.place = (9, ((0 : ℕ) : ℚ)) ∧
        (row.summary = getTxPayloadSummary platform Registry.empty bond.payload
            (some (.finite 9)) (some NetworkId.mainnet.text) ↔
          (ShowsBoing platform bond.payload → UnitsAgree Registry.empty .mainnet 9)) := by
  have hblock : (⟨9, none, some [some bond], none⟩ : ScanBlock) ∈ blocks :=
    List.mem_cons_of_mem _ List.mem_cons_self
  have htx : (⟨9, none, some [some bond], none⟩ : ScanBlock).txs[0]? = some (some bond) := rfl
  exact history_summary_iff platform Registry.empty sdk .mainnet (by decide) hblock htx
    (by decide +kernel) (by decide +kernel)

open TwoBlocks in
/-- **A bond on the mainnet is shown in the testnet's unit**: 3 base units as 3 BOING. -/
theorem mainnet_bond_differs :
    ∃ row ∈ collectAccountTxHistory platform Registry.empty sdk wallet blocks,
      row.place = (9, ((0 : ℕ) : ℚ)) ∧ row.failed = false ∧
        row.summary ≠ getTxPayloadSummary platform Registry.empty bond.payload
          (some (.finite 9)) (some NetworkId.mainnet.text) := by
  decide +kernel

end BoingObserver.Account
