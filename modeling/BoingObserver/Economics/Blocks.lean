import BoingObserver.NativeUnit.Amount
import BoingObserver.Payload.Kind
import BoingObserver.Rpc.Block
import BoingObserver.Rpc.Hex
import Mathlib.Algebra.Order.BigOperators.Group.List
import Mathlib.Data.List.Sort

/-!
# Economics of a sample of blocks

`analyzeBlockEconomics` of `block-economics.ts`: staking and transfer volume, in
base units, of the transactions that did not fail.

* `analyzeBlockEconomics_amount`: the totals are sums over the amounts moved, in
  the units of the default network.
* `analyzeBlockEconomics_network_iff`: they are the sums in a network's own units
  iff every amount moved is zero or in a block where the two units agree.
-/

namespace BoingObserver.Economics

open Js Rpc Payload NativeUnit

/-! ## Records -/

inductive Flow
  | bond
  | unbond
  | transfer
  deriving DecidableEq

def Flow.kind : Flow → PayloadVariant
  | .bond => .bond
  | .unbond => .unbond
  | .transfer => .transfer

structure Contribution where
  bond : ℕ
  unbond : ℕ
  transfer : ℕ
  bondTxs : ℕ
  unbondTxs : ℕ
  transferTxs : ℕ

def Contribution.zero : Contribution := ⟨0, 0, 0, 0, 0, 0⟩

def Contribution.add (a c : Contribution) : Contribution :=
  ⟨a.bond + c.bond, a.unbond + c.unbond, a.transfer + c.transfer, a.bondTxs + c.bondTxs,
    a.unbondTxs + c.unbondTxs, a.transferTxs + c.transferTxs⟩

def Contribution.amount (c : Contribution) : Flow → ℕ
  | .bond => c.bond
  | .unbond => c.unbond
  | .transfer => c.transfer

@[simp] theorem Contribution.amount_zero (flow : Flow) : Contribution.zero.amount flow = 0 := by
  cases flow <;> rfl

@[simp] theorem Contribution.amount_add (a c : Contribution) (flow : Flow) :
    (a.add c).amount flow = a.amount flow + c.amount flow := by
  cases flow <;> rfl

structure BlockEconomicsRow where
  height : Option Number
  timestamp : Number
  bond : ℕ
  unbond : ℕ
  transferVolume : ℕ
  bondTxs : ℕ
  unbondTxs : ℕ
  transferTxs : ℕ

structure TxCounts where
  bond : ℕ
  unbond : ℕ
  transfer : ℕ
  other : ℕ
  total : ℕ
  failed : ℕ

structure BlockEconomicsTotals where
  bond : ℕ
  unbond : ℕ
  transferVolume : ℕ
  netStakeFlow : ℤ
  uniqueProposers : ℕ
  blocksSampled : ℕ
  txCounts : TxCounts

def BlockEconomicsTotals.amount (t : BlockEconomicsTotals) : Flow → ℕ
  | .bond => t.bond
  | .unbond => t.unbond
  | .transfer => t.transferVolume

/-! ## The analysis -/

/-- The transaction at `index` executed, by the block's receipts if it has any. -/
def txSucceeded (block : Block) (index : ℕ) : Bool :=
  match block.receipts with
  | .array receipts =>
    match ((receipts[index]?).getD .undefined).get "success" with
    | .bool success => success
    | _ => true
  | _ => true

section

variable (nt : NumberText) (registry : Registry)

/-- Amounts in base units, normalized from the ledger unit at `height`. -/
def txContribution (tx : Value) (height : Option Number) : Contribution :=
  let p := getTxPayloadInner (tx.get "payload")
  let amountBase := (toBaseUnits nt registry (p.get "amount") height none).getD 0
  match getTxPayloadKind (tx.get "payload") with
  | .known .bond => { Contribution.zero with bond := amountBase, bondTxs := 1 }
  | .known .unbond => { Contribution.zero with unbond := amountBase, unbondTxs := 1 }
  | .known .transfer => { Contribution.zero with transfer := amountBase, transferTxs := 1 }
  | _ => Contribution.zero

/-- The contributions of the transactions that did not fail, and how many did. -/
def blockContribution (block : Block) : Contribution × ℕ :=
  block.txs.zipIdx.foldl (fun acc p =>
    if txSucceeded block p.2 then
      (acc.1.add (txContribution nt registry p.1 block.header.height), acc.2)
    else (acc.1, acc.2 + 1)) (Contribution.zero, 0)

def blockRow (block : Block) : BlockEconomicsRow :=
  let c := (blockContribution nt registry block).1
  { height := block.header.height
    timestamp :=
      if block.header.timestamp.isNullish then .ofNat 0 else nt.number block.header.timestamp
    bond := c.bond
    unbond := c.unbond
    transferVolume := c.transfer
    bondTxs := c.bondTxs
    unbondTxs := c.unbondTxs
    transferTxs := c.transferTxs }

def sortedBlocks (blocks : List (Option Block)) : List Block :=
  (blocks.filterMap id).insertionSort fun a b => a.sortHeight ≤ b.sortHeight

def analyzeBlockEconomics (blocks : List (Option Block)) :
    List BlockEconomicsRow × BlockEconomicsTotals :=
  let sorted := sortedBlocks blocks
  let rows := sorted.map (blockRow nt registry)
  let bondT := (rows.map (·.bond)).sum
  let unbondT := (rows.map (·.unbond)).sum
  let failedN := (sorted.map fun b => (blockContribution nt registry b).2).sum
  let bondN := (rows.map (·.bondTxs)).sum
  let unbondN := (rows.map (·.unbondTxs)).sum
  let transferN := (rows.map (·.transferTxs)).sum
  let totalTxs := (sorted.map fun b => b.txs.length).sum
  (rows,
    { bond := bondT
      unbond := unbondT
      transferVolume := (rows.map (·.transferVolume)).sum
      netStakeFlow := bondT - unbondT
      uniqueProposers :=
        (sorted.map fun b => hexForLink nt b.header.proposer).eraseDups.length
      blocksSampled := rows.length
      txCounts :=
        { bond := bondN
          unbond := unbondN
          transfer := transferN
          other := totalTxs - failedN - bondN - unbondN - transferN
          total := totalTxs
          failed := failedN } })

end

/-! ## What a network moved -/

def moves (flow : Flow) (block : Block) (p : Value × ℕ) : Bool :=
  txSucceeded block p.2 && getTxPayloadKind (p.1.get "payload") = .known flow.kind

def flowAmounts (flow : Flow) (block : Block) : List Value :=
  (block.txs.zipIdx.filter (moves flow block)).map fun p =>
    (getTxPayloadInner (p.1.get "payload")).get "amount"

section

variable (nt : NumberText) (registry : Registry)

/-- The sum of a flow over a block, in base units by the switch height of a network. -/
def blockTotal (network : Option Text) (flow : Flow) (block : Block) : ℕ :=
  ((flowAmounts flow block).map fun raw =>
    (toBaseUnits nt registry raw block.header.height network).getD 0).sum

/-- The sum of a flow over blocks, in base units by the switch height of a network. -/
def networkTotal (network : Option Text) (flow : Flow) (blocks : List (Option Block)) : ℕ :=
  ((blocks.filterMap id).map (blockTotal nt registry network flow)).sum

end

section

variable {nt : NumberText} {registry : Registry}

theorem txContribution_amount (tx : Value) (height : Option Number) (flow : Flow) :
    (txContribution nt registry tx height).amount flow =
      if getTxPayloadKind (tx.get "payload") = .known flow.kind then
        (toBaseUnits nt registry ((getTxPayloadInner (tx.get "payload")).get "amount") height
          none).getD 0
      else 0 := by
  rw [txContribution]
  split
  next h =>
    rw [h]
    cases flow <;> rfl
  next h =>
    rw [h]
    cases flow <;> rfl
  next h =>
    rw [h]
    cases flow <;> rfl
  next hb hu ht =>
    rw [Contribution.amount_zero, if_neg]
    cases flow with
    | bond => exact hb
    | unbond => exact hu
    | transfer => exact ht

theorem foldl_amount (block : Block) (flow : Flow) (l : List (Value × ℕ))
    (acc : Contribution × ℕ) :
    ((l.foldl (fun acc p =>
      if txSucceeded block p.2 then
        (acc.1.add (txContribution nt registry p.1 block.header.height), acc.2)
      else (acc.1, acc.2 + 1)) acc).1).amount flow =
    acc.1.amount flow + ((l.filter (moves flow block)).map fun p =>
      (toBaseUnits nt registry ((getTxPayloadInner (p.1.get "payload")).get "amount")
        block.header.height none).getD 0).sum := by
  induction l generalizing acc with
  | nil => rfl
  | cons p l ih =>
    rw [List.foldl_cons, ih, List.filter_cons]
    by_cases hs : txSucceeded block p.2
    · rw [if_pos hs, Contribution.amount_add, txContribution_amount]
      by_cases hk : getTxPayloadKind (p.1.get "payload") = .known flow.kind
      · have hm : moves flow block p = true := by rw [moves, hs, decide_eq_true hk, Bool.and_self]
        rw [if_pos hk, hm, if_pos rfl, List.map_cons, List.sum_cons, Nat.add_assoc]
      · have hm : moves flow block p = false := by rw [moves, decide_eq_false hk, Bool.and_false]
        rw [if_neg hk, hm, Nat.add_zero]
        rfl
    · have hm : moves flow block p = false := by rw [moves, eq_false_of_ne_true hs, Bool.false_and]
      rw [if_neg hs, hm]
      rfl

theorem blockContribution_amount (block : Block) (flow : Flow) :
    (blockContribution nt registry block).1.amount flow =
      blockTotal nt registry none flow block := by
  rw [blockContribution, foldl_amount, Contribution.amount_zero, Nat.zero_add, blockTotal,
    flowAmounts, List.map_map]
  rfl

/-- **The totals are the sums over the blocks**, in the units of the default network. -/
theorem analyzeBlockEconomics_amount (blocks : List (Option Block)) (flow : Flow) :
    (analyzeBlockEconomics nt registry blocks).2.amount flow =
      networkTotal nt registry none flow blocks := by
  have hsum : (analyzeBlockEconomics nt registry blocks).2.amount flow =
      ((sortedBlocks blocks).map fun b =>
        (blockContribution nt registry b).1.amount flow).sum := by
    cases flow <;> exact congrArg List.sum List.map_map
  rw [hsum, networkTotal]
  simp only [blockContribution_amount]
  exact ((List.perm_insertionSort _ _).map _).sum_eq

/-! ## Agreement with a network -/

/-- Sums of terms that are never smaller agree iff all terms do. -/
theorem sum_map_eq_iff {α : Type} {l : List α} {f g : α → ℕ} (h : ∀ x ∈ l, f x ≤ g x) :
    (l.map f).sum = (l.map g).sum ↔ ∀ x ∈ l, f x = g x := by
  induction l with
  | nil => simp
  | cons x l ih =>
    have hx := h x List.mem_cons_self
    have hl := fun y hy => h y (List.mem_cons_of_mem x hy)
    have hsum : (l.map f).sum ≤ (l.map g).sum := List.sum_le_sum hl
    rw [List.map_cons, List.map_cons, List.sum_cons, List.sum_cons, List.forall_mem_cons,
      ← ih hl]
    omega

/-- Sums of terms that are all on one side agree iff all terms do. -/
theorem networkTotal_eq_iff {network network' : Option Text}
    (h : baseUnitsFromHeight registry network ≤ baseUnitsFromHeight registry network')
    (flow : Flow) (blocks : List (Option Block)) :
    networkTotal nt registry network flow blocks = networkTotal nt registry network' flow blocks ↔
      ∀ b, some b ∈ blocks → ∀ raw ∈ flowAmounts flow b, (toBigInt nt raw).getD 0 ≠ 0 →
        nativeDecimalsAt registry b.header.height network =
          nativeDecimalsAt registry b.header.height network' := by
  have hraw : ∀ (b : Block) (raw : Value),
      (toBaseUnits nt registry raw b.header.height network).getD 0 ≤
        (toBaseUnits nt registry raw b.header.height network').getD 0 :=
    fun b raw => toBaseUnits_mono raw (nativeDecimalsAt_antitone h _)
  have hblock : ∀ b : Block, blockTotal nt registry network flow b ≤
      blockTotal nt registry network' flow b :=
    fun b => List.sum_le_sum fun raw _ => hraw b raw
  rw [networkTotal, networkTotal, sum_map_eq_iff fun b _ => hblock b]
  refine forall_congr' fun b => ?_
  rw [List.mem_filterMap]
  simp only [id, exists_eq_right]
  refine imp_congr_right fun _ => ?_
  rw [blockTotal, blockTotal, sum_map_eq_iff fun raw _ => hraw b raw]
  exact forall₂_congr fun raw _ => toBaseUnits_eq_iff raw

/-- **The totals are those of a network** iff each amount moved is zero or in a block where the
network's unit is the default network's. -/
theorem analyzeBlockEconomics_network_iff (nt : NumberText) (registry : Registry)
    (network : NetworkId) (blocks : List (Option Block)) :
    (∀ flow, (analyzeBlockEconomics nt registry blocks).2.amount flow =
        networkTotal nt registry (some network.text) flow blocks) ↔
      ∀ flow b, some b ∈ blocks → ∀ raw ∈ flowAmounts flow b, (toBigInt nt raw).getD 0 ≠ 0 →
        nativeDecimalsAt registry b.header.height none =
          nativeDecimalsAt registry b.header.height (some network.text) := by
  refine forall_congr' fun flow => ?_
  rw [analyzeBlockEconomics_amount]
  rcases le_total (baseUnitsFromHeight registry none)
    (baseUnitsFromHeight registry (some network.text)) with h | h
  · exact networkTotal_eq_iff h flow blocks
  · rw [eq_comm, networkTotal_eq_iff h]
    simp only [eq_comm]

def earlyTransfer : Block where
  header := { height := some (.ofNat 10), timestamp := .number (.ofNat 0), proposer := .string [] }
  transactions := some [.object [("payload", .object [("Transfer",
    .object [("to", .string []), ("amount", .string "5")])])]]
  receipts := .null

/-- **Five base units shown as five BOING**: the testnet's switch height is used for mainnet. -/
theorem earlyTransfer_inflated :
    (analyzeBlockEconomics integersOnly Registry.empty [some earlyTransfer]).2.amount .transfer =
        5 * 10 ^ 18 ∧
      networkTotal integersOnly Registry.empty (some NetworkId.mainnet.text) .transfer
        [some earlyTransfer] = 5 := by
  rw [analyzeBlockEconomics_amount]
  decide +kernel

end

end BoingObserver.Economics
