import BoingObserver.Economics.Blocks
import BoingObserver.Js.Map

/-!
# Conservation

The running totals of `analyzeBlockEconomics` in `block-economics.ts` as its loop
keeps them, and `cumulativeTransferSeries`.

* `analyzeLoop_eq`: the loop ends with the sums over the rows.
* `totals_eq`: the totals are sums over the blocks, in any order.
* `blockContribution_setTx`: a transaction that failed adds nothing.
* `economics_conserved`: counts and amounts add up.
-/

namespace BoingObserver.Economics

open Js Rpc Payload NativeUnit

/-! ## The loop -/

structure Running where
  rows : List BlockEconomicsRow
  bondT : ℕ
  unbondT : ℕ
  transferT : ℕ
  failedN : ℕ
  /-- A set, in the order of its first additions. -/
  proposers : List Text

def Running.start : Running := ⟨[], 0, 0, 0, 0, []⟩

/-- `s.add(x)` -/
def setAdd (s : List Text) (x : Text) : List Text := if x ∈ s then s else s ++ [x]

section

variable (nt : NumberText) (registry : Registry)

def Running.visit (acc : Running) (block : Block) : Running :=
  let row := blockRow nt registry block
  { rows := acc.rows ++ [row]
    bondT := acc.bondT + row.bond
    unbondT := acc.unbondT + row.unbond
    transferT := acc.transferT + row.transferVolume
    failedN := acc.failedN + (blockContribution nt registry block).2
    proposers := setAdd acc.proposers (hexForLink nt block.header.proposer) }

/-- `analyzeBlockEconomics`, with its running totals. -/
def analyzeLoop (blocks : List (Option Block)) : List BlockEconomicsRow × BlockEconomicsTotals :=
  let sorted := sortedBlocks blocks
  let acc := sorted.foldl (Running.visit nt registry) .start
  let bondN := (acc.rows.map (·.bondTxs)).sum
  let unbondN := (acc.rows.map (·.unbondTxs)).sum
  let transferN := (acc.rows.map (·.transferTxs)).sum
  let totalTxs := (sorted.map fun b => b.txs.length).sum
  (acc.rows,
    { bond := acc.bondT
      unbond := acc.unbondT
      transferVolume := acc.transferT
      netStakeFlow := acc.bondT - acc.unbondT
      uniqueProposers := acc.proposers.length
      blocksSampled := acc.rows.length
      txCounts :=
        { bond := bondN
          unbond := unbondN
          transfer := transferN
          other := totalTxs - acc.failedN - bondN - unbondN - transferN
          total := totalTxs
          failed := acc.failedN } })

end

structure CumulativePoint where
  height : Option Number
  cumulative : ℕ

/-- The running sum from `run` on. -/
def cumulativeFrom : ℕ → List BlockEconomicsRow → List CumulativePoint
  | _, [] => []
  | run, r :: rows => ⟨r.height, run + r.transferVolume⟩ :: cumulativeFrom (run + r.transferVolume) rows

/-- Running sum of transfer payload amounts (not tx count). -/
def cumulativeTransferSeries (rows : List BlockEconomicsRow) : List CumulativePoint :=
  cumulativeFrom 0 rows

/-! ## The loop and the sums -/

theorem length_eq_of_nodup {α : Type} {l l' : List α} (h : l.Nodup) (h' : l'.Nodup)
    (hmem : ∀ a, a ∈ l ↔ a ∈ l') : l.length = l'.length :=
  ((List.perm_ext_iff_of_nodup h h').mpr hmem).length_eq

theorem mem_setAdd {s : List Text} {x y : Text} : y ∈ setAdd s x ↔ y ∈ s ∨ y = x := by
  rw [setAdd]
  split
  next h => exact (or_iff_left_of_imp fun e => e ▸ h).symm
  next => rw [List.mem_append, List.mem_singleton]

theorem nodup_setAdd {s : List Text} (h : s.Nodup) (x : Text) : (setAdd s x).Nodup := by
  rw [setAdd]
  split
  next => exact h
  next hx => exact List.nodup_append.mpr ⟨h, List.nodup_singleton x, by
    rintro a ha b hb rfl
    exact hx (List.mem_singleton.mp hb ▸ ha)⟩

theorem foldl_setAdd {s : List Text} (xs : List Text) (h : s.Nodup) :
    (xs.foldl setAdd s).Nodup ∧ ∀ y, y ∈ xs.foldl setAdd s ↔ y ∈ s ∨ y ∈ xs := by
  induction xs generalizing s with
  | nil => exact ⟨h, fun y => by simp⟩
  | cons x xs ih =>
    obtain ⟨hnodup, hmem⟩ := ih (nodup_setAdd h x)
    refine ⟨hnodup, fun y => ?_⟩
    rw [List.foldl_cons, hmem, mem_setAdd, List.mem_cons, or_assoc]

theorem length_foldl_setAdd (xs : List Text) : (xs.foldl setAdd []).length = xs.eraseDups.length := by
  obtain ⟨hnodup, hmem⟩ := foldl_setAdd xs List.nodup_nil
  refine length_eq_of_nodup hnodup (nodup_eraseDups xs) fun y => ?_
  rw [hmem, List.mem_eraseDups]
  exact or_iff_right List.not_mem_nil

section

variable {nt : NumberText} {registry : Registry}

theorem foldl_visit (blocks : List Block) (acc : Running) :
    blocks.foldl (Running.visit nt registry) acc =
      { rows := acc.rows ++ blocks.map (blockRow nt registry)
        bondT := acc.bondT + (blocks.map fun b => (blockRow nt registry b).bond).sum
        unbondT := acc.unbondT + (blocks.map fun b => (blockRow nt registry b).unbond).sum
        transferT :=
          acc.transferT + (blocks.map fun b => (blockRow nt registry b).transferVolume).sum
        failedN := acc.failedN + (blocks.map fun b => (blockContribution nt registry b).2).sum
        proposers :=
          (blocks.map fun b => hexForLink nt b.header.proposer).foldl setAdd acc.proposers } := by
  induction blocks generalizing acc with
  | nil => simp
  | cons b blocks ih =>
    rw [List.foldl_cons, ih]
    simp only [Running.visit, List.map_cons, List.sum_cons, List.foldl_cons, List.append_assoc,
      List.singleton_append, Nat.add_assoc]

/-- **The loop ends with the sums over the rows.** -/
theorem analyzeLoop_eq (blocks : List (Option Block)) :
    analyzeLoop nt registry blocks = analyzeBlockEconomics nt registry blocks := by
  simp only [analyzeLoop, analyzeBlockEconomics, foldl_visit, Running.start, List.nil_append,
    Nat.zero_add, List.map_map, length_foldl_setAdd]
  rfl

/-! ## One block -/

def outcome (nt : NumberText) (registry : Registry) (block : Block) (p : Value × ℕ) :
    Option Contribution :=
  if txSucceeded block p.2 then some (txContribution nt registry p.1 block.header.height) else none

def addOutcome (acc : Contribution × ℕ) : Option Contribution → Contribution × ℕ
  | some c => (acc.1.add c, acc.2)
  | none => (acc.1, acc.2 + 1)

theorem blockContribution_eq (block : Block) :
    blockContribution nt registry block =
      (block.txs.zipIdx.map (outcome nt registry block)).foldl addOutcome (Contribution.zero, 0) := by
  rw [blockContribution, List.foldl_map]
  congr 1
  funext acc p
  rw [outcome]
  split
  · rfl
  · rfl

def setTx (block : Block) (i : ℕ) (tx : Value) : Block :=
  { block with transactions := block.transactions.map (·.set i tx) }

theorem txs_setTx (block : Block) (i : ℕ) (tx : Value) :
    (setTx block i tx).txs = block.txs.set i tx := by
  rw [Block.txs, Block.txs, setTx]
  cases block.transactions with
  | none => rfl
  | some txs => rfl

/-- **A transaction that failed adds nothing** but itself. -/
theorem blockContribution_setTx {block : Block} {i : ℕ} (h : txSucceeded block i = false)
    (tx : Value) :
    blockContribution nt registry (setTx block i tx) = blockContribution nt registry block := by
  rw [blockContribution_eq, blockContribution_eq, txs_setTx]
  congr 1
  refine List.ext_getElem? fun j => ?_
  rw [List.getElem?_map, List.getElem?_map, List.getElem?_zipIdx, List.getElem?_zipIdx,
    List.getElem?_set, Nat.zero_add]
  split
  next hij =>
    subst hij
    split
    next hlt =>
      have hnone : ∀ block' tx', txSucceeded block' i = false →
          outcome nt registry block' (tx', i) = none := by
        intro block' tx' h'
        rw [outcome, h']
        rfl
      rw [List.getElem?_eq_getElem hlt]
      exact congrArg some ((hnone _ _ h).trans (hnone _ _ h).symm)
    next hlt =>
      rw [List.getElem?_eq_none (not_lt.mp hlt)]
      rfl
  next => rfl

def Contribution.txs (c : Contribution) : ℕ := c.bondTxs + c.unbondTxs + c.transferTxs

theorem txContribution_txs_le (tx : Value) (height : Option Number) :
    (txContribution nt registry tx height).txs ≤ 1 := by
  rw [txContribution]
  split
  · exact le_rfl
  · exact le_rfl
  · exact le_rfl
  · exact Nat.zero_le 1

theorem foldl_addOutcome_le (outcomes : List (Option Contribution))
    (h : ∀ c, some c ∈ outcomes → c.txs ≤ 1) (acc : Contribution × ℕ) :
    (outcomes.foldl addOutcome acc).1.txs + (outcomes.foldl addOutcome acc).2 ≤
      acc.1.txs + acc.2 + outcomes.length := by
  induction outcomes generalizing acc with
  | nil => exact le_rfl
  | cons o outcomes ih =>
    have hstep : (addOutcome acc o).1.txs + (addOutcome acc o).2 ≤ acc.1.txs + acc.2 + 1 := by
      cases o with
      | none => exact le_rfl
      | some c =>
        have hc := h c List.mem_cons_self
        simp only [addOutcome, Contribution.add, Contribution.txs] at hc ⊢
        omega
    have hrest := ih (fun c hc => h c (List.mem_cons_of_mem o hc)) (addOutcome acc o)
    rw [List.foldl_cons, List.length_cons]
    omega

/-- **No transaction is counted twice.** -/
theorem blockContribution_le (nt : NumberText) (registry : Registry) (block : Block) :
    (blockContribution nt registry block).1.txs + (blockContribution nt registry block).2 ≤
      block.txs.length := by
  have hone : ∀ c, some c ∈ block.txs.zipIdx.map (outcome nt registry block) → c.txs ≤ 1 := by
    intro c hc
    obtain ⟨p, -, hp⟩ := List.mem_map.mp hc
    rw [outcome, Option.ite_none_right_eq_some] at hp
    rw [← Option.some.inj hp.2]
    exact txContribution_txs_le _ _
  have hle := foldl_addOutcome_le _ hone (Contribution.zero, 0)
  rw [← blockContribution_eq, List.length_map, List.length_zipIdx] at hle
  exact hle.trans_eq (Nat.zero_add _)

/-! ## All blocks -/

def totalsOf (nt : NumberText) (registry : Registry) (blocks : List Block) :
    BlockEconomicsTotals :=
  let sum := fun f : Contribution × ℕ → ℕ => (blocks.map (f ∘ blockContribution nt registry)).sum
  let total := (blocks.map fun b => b.txs.length).sum
  { bond := sum (·.1.bond)
    unbond := sum (·.1.unbond)
    transferVolume := sum (·.1.transfer)
    netStakeFlow := sum (·.1.bond) - sum (·.1.unbond)
    uniqueProposers := (blocks.map fun b => hexForLink nt b.header.proposer).eraseDups.length
    blocksSampled := blocks.length
    txCounts :=
      { bond := sum (·.1.bondTxs)
        unbond := sum (·.1.unbondTxs)
        transfer := sum (·.1.transferTxs)
        other := total - sum (·.2) - sum (·.1.bondTxs) - sum (·.1.unbondTxs) - sum (·.1.transferTxs)
        total
        failed := sum (·.2) } }

theorem totalsOf_perm {l l' : List Block} (h : l.Perm l') :
    totalsOf nt registry l = totalsOf nt registry l' := by
  have hproposers : (l.map fun b => hexForLink nt b.header.proposer).eraseDups.length =
      (l'.map fun b => hexForLink nt b.header.proposer).eraseDups.length := by
    refine length_eq_of_nodup (nodup_eraseDups _) (nodup_eraseDups _) fun a => ?_
    rw [List.mem_eraseDups, List.mem_eraseDups]
    exact (h.map _).mem_iff
  have hsum : ∀ f : Block → ℕ, (l.map f).sum = (l'.map f).sum := fun f => (h.map f).sum_eq
  simp only [totalsOf, hsum, hproposers, h.length_eq]

theorem sortedBlocks_perm (blocks : List (Option Block)) :
    (sortedBlocks blocks).Perm (blocks.filterMap id) :=
  List.perm_insertionSort _ _

/-- **The totals are sums over the blocks**, in any order. -/
theorem totals_eq (blocks : List (Option Block)) :
    (analyzeBlockEconomics nt registry blocks).2 = totalsOf nt registry (blocks.filterMap id) := by
  rw [← totalsOf_perm (sortedBlocks_perm blocks)]
  simp only [analyzeBlockEconomics, totalsOf, List.map_map, List.length_map]
  rfl

/-- Blocks that add the same can stand for each other. -/
theorem totalsOf_replace {b b' : Block} (hc : blockContribution nt registry b' =
      blockContribution nt registry b) (hlen : b'.txs.length = b.txs.length)
    (hheader : b'.header = b.header) (l₁ l₂ : List Block) :
    totalsOf nt registry (l₁ ++ b' :: l₂) = totalsOf nt registry (l₁ ++ b :: l₂) := by
  simp only [totalsOf, List.map_append, List.map_cons, Function.comp_apply, hc, hlen, hheader,
    List.length_append, List.length_cons]

/-- **The counts add up**; nothing is lost by cutting `other` off at zero. -/
theorem totalsOf_counts (blocks : List Block) :
    let c := (totalsOf nt registry blocks).txCounts
    c.bond + c.unbond + c.transfer + c.other + c.failed = c.total := by
  have hle : (blocks.map fun b => (blockContribution nt registry b).1.bondTxs).sum +
      (blocks.map fun b => (blockContribution nt registry b).1.unbondTxs).sum +
      (blocks.map fun b => (blockContribution nt registry b).1.transferTxs).sum +
      (blocks.map fun b => (blockContribution nt registry b).2).sum ≤
        (blocks.map fun b => b.txs.length).sum := by
    induction blocks with
    | nil => exact le_rfl
    | cons b blocks ih =>
      have hb := blockContribution_le nt registry b
      rw [Contribution.txs] at hb
      simp only [List.map_cons, List.sum_cons]
      omega
  simp only [totalsOf, Function.comp_def]
  omega

/-! ## The series -/

theorem length_cumulativeFrom (run : ℕ) (rows : List BlockEconomicsRow) :
    (cumulativeFrom run rows).length = rows.length := by
  induction rows generalizing run with
  | nil => rfl
  | cons r rows ih => rw [cumulativeFrom, List.length_cons, ih, List.length_cons]

/-- **The last point is the sum of all.** -/
theorem cumulativeFrom_getLast {run : ℕ} {rows : List BlockEconomicsRow} {p : CumulativePoint}
    (h : p ∈ (cumulativeFrom run rows).getLast?) :
    p.cumulative = run + (rows.map (·.transferVolume)).sum := by
  induction rows generalizing run with
  | nil => cases h
  | cons r rows ih =>
    rw [List.map_cons, List.sum_cons, ← Nat.add_assoc]
    cases rows with
    | nil =>
      obtain rfl := Option.some.inj h
      rfl
    | cons r' rows =>
      rw [cumulativeFrom, cumulativeFrom, List.getLast?_cons_cons] at h
      exact ih h

/-- **Economics conservation**: the counts add up, the totals are the sums of the columns, in any
order of the blocks and whatever the failed transactions say, and the running sum ends there. -/
theorem economics_conserved (nt : NumberText) (registry : Registry)
    (blocks : List (Option Block)) :
    let rows := (analyzeLoop nt registry blocks).1
    let totals := (analyzeLoop nt registry blocks).2
    let c := totals.txCounts
    analyzeLoop nt registry blocks = analyzeBlockEconomics nt registry blocks ∧
    (c.bond + c.unbond + c.transfer + c.other + c.failed = c.total ∧
      c.total = ((blocks.filterMap id).map fun b => b.txs.length).sum) ∧
    (totals.bond = (rows.map (·.bond)).sum ∧ totals.unbond = (rows.map (·.unbond)).sum ∧
      totals.transferVolume = (rows.map (·.transferVolume)).sum) ∧
    (∀ blocks', blocks.Perm blocks' → (analyzeLoop nt registry blocks').2 = totals) ∧
    (∀ l₁ l₂ b i, blocks = l₁ ++ some b :: l₂ → txSucceeded b i = false → ∀ tx,
      (analyzeLoop nt registry (l₁ ++ some (setTx b i tx) :: l₂)).2 = totals) ∧
    ((cumulativeTransferSeries rows).length = rows.length ∧
      ∀ p ∈ (cumulativeTransferSeries rows).getLast?, p.cumulative = totals.transferVolume) := by
  dsimp only
  simp only [analyzeLoop_eq, totals_eq, true_and]
  refine ⟨⟨totalsOf_counts _, rfl⟩, ?_, ?_, ?_, ?_, ?_⟩
  · rw [← totals_eq]
    exact ⟨rfl, rfl, rfl⟩
  · intro blocks' hperm
    exact (totalsOf_perm (hperm.filterMap id)).symm
  · intro l₁ l₂ b i hblocks hfailed tx
    rw [hblocks]
    rw [List.filterMap_append, List.filterMap_append]
    refine totalsOf_replace (blockContribution_setTx hfailed tx) ?_ rfl _ _
    rw [txs_setTx, List.length_set]
  · exact length_cumulativeFrom 0 _
  · intro p hp
    rw [← totals_eq, cumulativeFrom_getLast hp, Nat.zero_add]
    rfl

end

end BoingObserver.Economics
