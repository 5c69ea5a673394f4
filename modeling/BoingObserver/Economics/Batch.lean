import BoingObserver.Economics.Conservation
import BoingObserver.Js.ToNumber
import BoingObserver.Payload.Summary

/-!
# Transfers in batches

`computeNetworkStats` of `network-stats.ts`, and what becomes of its sums when a transfer is
sent as the one step of a batch.

* `blockTotal_setTx`: what a block moves, with another transaction in a place.
* `batchSteps_batchOf`: the readers of steps see the transfer in the batch.
* `batch_moves_iff`: the volume stays the same iff the transfer moves nothing.
-/

namespace BoingObserver.Economics

open Js Rpc Payload NativeUnit

/-! ## Statistics -/

structure Doubles where
  sub : Number → Number → Number
  div : Number → Number → Number

structure NetworkStats where
  blockHeight : Option Number
  avgBlockTimeSec : Option Number
  secondsSinceLastBlock : Option Number
  boingMoved : ℕ
  uniqueProposers : ℕ
  blocksSampled : ℕ

/-- `x > 0` -/
def isPositive (x : Number) : Bool := (Number.ofNat 0).lt x

/-- `Math.max(0, x)` -/
def atLeastZero (x : Number) : Number := if x.lt (.ofNat 0) then .ofNat 0 else x

/-- `!height` -/
def isFalsy (height : Option Number) : Bool :=
  match height with
  | none => true
  | some x => !(Value.number x).truthy

section

variable (nt : NumberText) (registry : Registry)

def computeNetworkStats (doubles : Doubles) (height : Option Number) (blocks : List (Option Block))
    (nowSec : Number) : NetworkStats :=
  let (rows, totals) := analyzeBlockEconomics nt registry blocks
  let boingMoved := totals.transferVolume + totals.bond + totals.unbond
  let uniqueProposers := totals.uniqueProposers
  let since := fun t => atLeastZero (doubles.sub nowSec t)
  if isFalsy height ∨ rows.length < 2 then
    let lastTs := rows.foldl (fun m r => if m.lt r.timestamp then r.timestamp else m) (.ofNat 0)
    { blockHeight := height
      avgBlockTimeSec := none
      secondsSinceLastBlock := if isPositive lastTs then some (since lastTs) else none
      boingMoved, uniqueProposers, blocksSampled := rows.length }
  else
    let timestamps := (rows.map (·.timestamp)).filter isPositive
    let avgBlockTimeSec :=
      match timestamps with
      | first :: second :: rest =>
        let last := (second :: rest).getLastD first
        some (doubles.div (doubles.sub last first) (.ofNat (timestamps.length - 1)))
      | _ => none
    { blockHeight := height
      avgBlockTimeSec
      secondsSinceLastBlock := timestamps.getLast?.map since
      boingMoved, uniqueProposers, blocksSampled := rows.length }

end

section

variable {nt : NumberText} {registry : Registry}

theorem computeNetworkStats_boingMoved (doubles : Doubles) (height : Option Number)
    (blocks : List (Option Block)) (nowSec : Number) :
    (computeNetworkStats nt registry doubles height blocks nowSec).boingMoved =
      networkTotal nt registry none .transfer blocks + networkTotal nt registry none .bond blocks +
        networkTotal nt registry none .unbond blocks := by
  rw [← analyzeBlockEconomics_amount, ← analyzeBlockEconomics_amount,
    ← analyzeBlockEconomics_amount, computeNetworkStats]
  dsimp only
  split <;> rfl

/-! ## Another transaction in a place -/

def txAmount (nt : NumberText) (registry : Registry) (flow : Flow) (block : Block)
    (p : Value × ℕ) : ℕ :=
  if moves flow block p then
    (toBaseUnits nt registry ((getTxPayloadInner (p.1.get "payload")).get "amount")
      block.header.height none).getD 0
  else 0

theorem sum_map_filter {α : Type} (q : α → Bool) (f : α → ℕ) (l : List α) :
    ((l.filter q).map f).sum = (l.map fun a => if q a then f a else 0).sum := by
  induction l with
  | nil => rfl
  | cons a l ih =>
    rw [List.filter_cons, List.map_cons, List.sum_cons, ← ih]
    split
    · rw [List.map_cons, List.sum_cons]
    · rw [Nat.zero_add]

theorem blockTotal_eq (flow : Flow) (block : Block) :
    blockTotal nt registry none flow block =
      (block.txs.zipIdx.map (txAmount nt registry flow block)).sum := by
  rw [blockTotal, flowAmounts, List.map_map]
  exact sum_map_filter _ _ _

/-- **What a block moves with another transaction** in a place. -/
theorem blockTotal_setTx (flow : Flow) {block : Block} {i : ℕ} {tx : Value}
    (h : block.txs[i]? = some tx) (tx' : Value) :
    blockTotal nt registry none flow (setTx block i tx') +
        txAmount nt registry flow block (tx, i) =
      blockTotal nt registry none flow block + txAmount nt registry flow block (tx', i) := by
  obtain ⟨before, after, htxs, rfl⟩ : ∃ before after, block.txs = before ++ tx :: after ∧
      before.length = i := by
    obtain ⟨hi, htx⟩ := List.getElem?_eq_some_iff.mp h
    refine ⟨block.txs.take i, block.txs.drop (i + 1), ?_, ?_⟩
    · rw [← htx, List.getElem_cons_drop, List.take_append_drop]
    · rw [List.length_take]
      omega
  have hset : (setTx block before.length tx').txs = before ++ tx' :: after := by
    rw [txs_setTx, htxs, List.set_append_right _ _ le_rfl, Nat.sub_self]
    rfl
  let sum (l : List (Value × ℕ)) : ℕ := (l.map (txAmount nt registry flow block)).sum
  have hsum (t : Value) : sum (before ++ t :: after).zipIdx = sum before.zipIdx +
      (txAmount nt registry flow block (t, before.length) +
        sum (after.zipIdx (before.length + 1))) := by
    simp only [sum]
    rw [List.zipIdx_append, List.zipIdx_cons, Nat.zero_add, List.map_append, List.map_cons,
      List.sum_append, List.sum_cons]
  have hnew : blockTotal nt registry none flow (setTx block before.length tx') =
      sum (before ++ tx' :: after).zipIdx := by
    -- The height and the receipts stay.
    rw [blockTotal_eq, hset]
    rfl
  have hold : blockTotal nt registry none flow block = sum (before ++ tx :: after).zipIdx := by
    rw [blockTotal_eq, htxs]
  rw [hnew, hold, hsum, hsum]
  omega

/-! ## One-step batches -/

def BatchOf (payload' payload : Value) : Prop :=
  getTxPayloadKind payload' = .known .batch ∧
    (getTxPayloadInner payload').get "calls" = .array [payload]

/-- **The readers of steps see the transfer**, with its recipient and its amount. -/
theorem batchSteps_batchOf {payload' payload : Value} (h : BatchOf payload' payload)
    (htransfer : getTxPayloadKind payload = .known .transfer) :
    batchSteps nt (getTxPayloadInner payload') =
      [.transfer ((getTxPayloadInner payload).get "to")
        (nt.stringOf (((getTxPayloadInner payload).get "amount").orElse (.string [])))] := by
  have hkind : (unwrapTaggedPayload payload).2.getD
      (getTxPayloadKindFlat (unwrapTaggedPayload payload).1) = .known .transfer := by
    rw [← htransfer, getTxPayloadKind]
    rw [getTxPayloadKind] at htransfer
    split at htransfer
    · cases htransfer
    next hnullish =>
      rw [if_neg hnullish]
      rcases unwrapTaggedPayload payload with ⟨inner, _ | kind⟩ <;> rfl
  have hstep : batchStep nt payload = .transfer ((getTxPayloadInner payload).get "to")
      (nt.stringOf (((getTxPayloadInner payload).get "amount").orElse (.string []))) := by
    simp only [batchStep, hkind, getTxPayloadInner]
  rw [batchSteps, h.2, ← hstep]
  rfl

theorem networkTotal_append_cons (network : Option Text) (flow : Flow)
    (l₁ : List (Option Block)) (block : Block) (l₂ : List (Option Block)) :
    networkTotal nt registry network flow (l₁ ++ some block :: l₂) =
      networkTotal nt registry network flow l₁ + (blockTotal nt registry network flow block +
        networkTotal nt registry network flow l₂) := by
  have hcons : (some block :: l₂).filterMap id = block :: l₂.filterMap id := rfl
  rw [networkTotal, List.filterMap_append, hcons, List.map_append, List.map_cons, List.sum_append,
    List.sum_cons]
  rfl

theorem txAmount_of_ne {flow : Flow} {block : Block} {p : Value × ℕ}
    (h : getTxPayloadKind (p.1.get "payload") ≠ .known flow.kind) :
    txAmount nt registry flow block p = 0 := by
  have hmoves : moves flow block p = false := by
    rw [moves, decide_eq_false h, Bool.and_false]
  rw [txAmount, hmoves]
  rfl

theorem toBaseUnits_eq_zero_iff (registry : Registry) (raw : Value) (height : Option Number)
    (network : Option Text) :
    (toBaseUnits nt registry raw height network).getD 0 = 0 ↔ (toBigInt nt raw).getD 0 = 0 := by
  rw [toBaseUnits, ledgerToBaseUnits_getD]
  split
  · exact Iff.rfl
  · rw [Nat.mul_eq_zero]
    exact or_iff_left (by decide)

section

variable {block : Block} {i : ℕ} {tx tx' : Value}

/-- **What the batch hides**: the amount of the transfer is gone, and nothing else changes. -/
theorem networkTotal_batchOf (nt : NumberText) (registry : Registry) (l₁ l₂ : List (Option Block))
    (htx : block.txs[i]? = some tx)
    (hsuccess : txSucceeded block i = true)
    (htransfer : getTxPayloadKind (tx.get "payload") = .known .transfer)
    (hbatch : BatchOf (tx'.get "payload") (tx.get "payload")) (flow : Flow) :
    networkTotal nt registry none flow (l₁ ++ some (setTx block i tx') :: l₂) +
        (if flow = .transfer then
          (toBaseUnits nt registry ((getTxPayloadInner (tx.get "payload")).get "amount")
            block.header.height none).getD 0
        else 0) =
      networkTotal nt registry none flow (l₁ ++ some block :: l₂) := by
  have hblock : blockTotal nt registry none flow (setTx block i tx') +
      txAmount nt registry flow block (tx, i) =
        blockTotal nt registry none flow block + txAmount nt registry flow block (tx', i) :=
    blockTotal_setTx flow htx tx'
  have hnew : txAmount nt registry flow block (tx', i) = 0 := by
    refine txAmount_of_ne ?_
    rw [hbatch.1]
    cases flow <;> decide
  have hold : txAmount nt registry flow block (tx, i) = if flow = .transfer then
      (toBaseUnits nt registry ((getTxPayloadInner (tx.get "payload")).get "amount")
        block.header.height none).getD 0 else 0 := by
    split
    next hflow =>
      subst hflow
      have hmoves : moves .transfer block (tx, i) = true := by
        rw [moves, hsuccess, Bool.true_and]
        exact decide_eq_true htransfer
      rw [txAmount, if_pos hmoves]
    next hflow =>
      refine txAmount_of_ne ?_
      rw [htransfer]
      cases flow with
      | bond => decide
      | unbond => decide
      | transfer => exact absurd rfl hflow
  rw [networkTotal_append_cons, networkTotal_append_cons, ← hold]
  omega

/-- **A transfer as the one step of a batch**: the transfer volume and the BOING moved stay the same
iff the transfer moves nothing. -/
theorem batch_moves_iff (nt : NumberText) (registry : Registry) (doubles : Doubles)
    (height : Option Number) (nowSec : Number) (l₁ l₂ : List (Option Block))
    (htx : block.txs[i]? = some tx) (hsuccess : txSucceeded block i = true)
    (htransfer : getTxPayloadKind (tx.get "payload") = .known .transfer)
    (hbatch : BatchOf (tx'.get "payload") (tx.get "payload")) :
    let blocks := l₁ ++ some block :: l₂
    let blocks' := l₁ ++ some (setTx block i tx') :: l₂
    ((computeNetworkStats nt registry doubles height blocks' nowSec).boingMoved =
          (computeNetworkStats nt registry doubles height blocks nowSec).boingMoved ∧
        (analyzeBlockEconomics nt registry blocks').2.transferVolume =
          (analyzeBlockEconomics nt registry blocks).2.transferVolume) ↔
      (toBigInt nt ((getTxPayloadInner (tx.get "payload")).get "amount")).getD 0 = 0 := by
  intro blocks blocks'
  have hvolume (bs : List (Option Block)) :
      (analyzeBlockEconomics nt registry bs).2.transferVolume =
        networkTotal nt registry none .transfer bs := analyzeBlockEconomics_amount bs .transfer
  have hflow := networkTotal_batchOf nt registry l₁ l₂ htx hsuccess htransfer hbatch
  have ht := hflow .transfer
  have hb := hflow .bond
  have hu := hflow .unbond
  rw [if_pos rfl] at ht
  rw [if_neg (by decide), Nat.add_zero] at hb hu
  rw [hvolume, hvolume, computeNetworkStats_boingMoved, computeNetworkStats_boingMoved,
    ← toBaseUnits_eq_zero_iff registry _ block.header.height none]
  simp only [blocks, blocks']
  omega

end

/-! ## Five units in a batch -/

def earlyTx : Value :=
  .object [("payload", .object [("Transfer",
    .object [("to", .string []), ("amount", .string "5")])])]

def earlyBatch : Value :=
  .object [("payload", .object [("Batch",
    .object [("calls", .array [earlyTx.get "payload"])])])]

def noDoubles : Doubles := ⟨fun _ _ => .nan, fun _ _ => .nan⟩

theorem batch_moves_early :
    let blocks' : List (Option Block) := [some (setTx earlyTransfer 0 earlyBatch)]
    ((computeNetworkStats integersOnly Registry.empty noDoubles none blocks' .nan).boingMoved =
          (computeNetworkStats integersOnly Registry.empty noDoubles none [some earlyTransfer]
            .nan).boingMoved ∧
        (analyzeBlockEconomics integersOnly Registry.empty blocks').2.transferVolume =
          (analyzeBlockEconomics integersOnly Registry.empty
            [some earlyTransfer]).2.transferVolume) ↔
      (toBigInt integersOnly (.string "5")).getD 0 = 0 := by
  have htx : earlyTransfer.txs[0]? = some earlyTx := rfl
  have htransfer : getTxPayloadKind (earlyTx.get "payload") = .known .transfer := by decide
  have hbatch : BatchOf (earlyBatch.get "payload") (earlyTx.get "payload") := ⟨by decide, rfl⟩
  exact batch_moves_iff integersOnly Registry.empty noDoubles none .nan [] [] htx rfl htransfer
    hbatch

/-- **Five BOING moved, and none in a batch.** -/
theorem batch_hides_transfer :
    (analyzeBlockEconomics integersOnly Registry.empty [some earlyTransfer]).2.amount .transfer =
        5 * 10 ^ 18 ∧
      (analyzeBlockEconomics integersOnly Registry.empty
        [some (setTx earlyTransfer 0 earlyBatch)]).2.amount .transfer = 0 ∧
      (computeNetworkStats integersOnly Registry.empty noDoubles none [some earlyTransfer]
        .nan).boingMoved = 5 * 10 ^ 18 ∧
      (computeNetworkStats integersOnly Registry.empty noDoubles none
        [some (setTx earlyTransfer 0 earlyBatch)] .nan).boingMoved = 0 := by
  rw [analyzeBlockEconomics_amount, analyzeBlockEconomics_amount, computeNetworkStats_boingMoved,
    computeNetworkStats_boingMoved]
  decide +kernel

end

end BoingObserver.Economics
