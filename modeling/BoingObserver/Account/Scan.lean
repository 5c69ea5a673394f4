import BoingObserver.Account.Roles
import BoingObserver.Account.Window

/-!
# Account history by scanning blocks

`collectAccountTxHistory` of `account-tx-history.ts`: the transactions of some
blocks that an account has a role in, newest first.

* `pairwise_newer`: of blocks with distinct heights, rows decrease in height and
  index.
* `place_mem_iff`: a transaction has a row iff the account has a role in it.
* `collectAccountTxHistory_exact`: so the history is exact.
-/

namespace BoingObserver.Account

open Js Rpc Payload Deploy NativeUnit

structure ScanBlock where
  height : ℚ
  timestamp : Option Number
  transactions : Option (List (Option ScanTx))
  receipts : Option (List Value)

/-- `block.transactions ?? []` -/
def ScanBlock.txs (block : ScanBlock) : List (Option ScanTx) := block.transactions.getD []

/-- `(block.receipts ?? [])[i] ?? null` -/
def ScanBlock.receiptAt (block : ScanBlock) (i : ℕ) : Value :=
  (((block.receipts.getD [])[i]?).getD .undefined).orElse .null

section

variable (platform : Platform) (registry : Registry) (sdk : Sdk)

def scanItem (want : Text) (block : ScanBlock) (tx : ScanTx) (i : ℕ) :
    Option AccountTxHistoryItem :=
  let nt := platform.numberText
  let receipt := block.receiptAt i
  let roles := rolesForAccountInTx nt sdk want tx receipt
  let summary := getTxPayloadSummary platform registry tx.payload (some (.finite block.height)) none
  if roles = [] then none
  else
    some
      { blockHeight := block.height
        txIndex := i
        timestamp := block.timestamp
        txId := rowTxId (receipt.get "tx_id")
        sender := asAccount64 nt tx.sender
        kind := getTxPayloadKind tx.payload
        summary :=
          if isFailed (receipt.get "success") then summary ++ " · failed, nothing transferred"
          else summary
        roles
        failed := isFailed (receipt.get "success") }

def scanBlock (want : Text) (block : ScanBlock) : List AccountTxHistoryItem :=
  block.txs.zipIdx.filterMap fun p =>
    p.1.bind fun tx => scanItem platform registry sdk want block tx p.2

def collectAccountTxHistory (account64 : Text) (blocks : List ScanBlock) :
    List AccountTxHistoryItem :=
  let want := normalizeHex64 account64
  if want = [] then []
  else
    (blocks.flatMap (scanBlock platform registry sdk want)).insertionSort fun a b => atLeast a b

end

/-! ## Rows and their places -/

def AccountTxHistoryItem.place (row : AccountTxHistoryItem) : ℚ × ℚ := (row.blockHeight, row.txIndex)

def Newer (a b : AccountTxHistoryItem) : Prop :=
  b.blockHeight < a.blockHeight ∨ (b.blockHeight = a.blockHeight ∧ b.txIndex < a.txIndex)

def HasRole (nt : NumberText) (sdk : Sdk) (account64 : Text) (block : ScanBlock) (i : ℕ) : Prop :=
  ∃ tx, block.txs[i]? = some (some tx) ∧
    rolesForAccountInTx nt sdk account64 tx (block.receiptAt i) ≠ []

section

variable {platform : Platform} {registry : Registry} {sdk : Sdk} {want account64 : Text}
  {block : ScanBlock} {row : AccountTxHistoryItem}

theorem scanItem_eq_some {tx : ScanTx} {i : ℕ}
    (h : scanItem platform registry sdk want block tx i = some row) :
    row.place = (block.height, (i : ℚ)) ∧
      row.roles = rolesForAccountInTx platform.numberText sdk want tx (block.receiptAt i) ∧
      row.roles ≠ [] := by
  simp only [scanItem, Option.ite_none_left_eq_some] at h
  obtain ⟨hne, h⟩ := h
  obtain rfl := Option.some.inj h
  exact ⟨rfl, rfl, hne⟩

theorem mem_scanBlock : row ∈ scanBlock platform registry sdk want block ↔
    ∃ i tx, block.txs[i]? = some (some tx) ∧
      scanItem platform registry sdk want block tx i = some row := by
  rw [scanBlock, List.mem_filterMap]
  constructor
  · rintro ⟨⟨tx?, i⟩, hmem, hrow⟩
    obtain ⟨tx, rfl, hitem⟩ := Option.bind_eq_some_iff.mp hrow
    exact ⟨i, tx, List.mem_zipIdx_iff_getElem?.mp hmem, hitem⟩
  · rintro ⟨i, tx, hget, hitem⟩
    exact ⟨(some tx, i), List.mem_zipIdx_iff_getElem?.mpr hget, hitem⟩

/-- The places of a block's rows, each with the index it came from. -/
theorem nodup_places_scanBlock :
    ((scanBlock platform registry sdk want block).map (·.place)).Nodup := by
  rw [scanBlock, List.Nodup, List.pairwise_map, List.pairwise_filterMap]
  have hidx : block.txs.zipIdx.Pairwise fun p q => p.2 ≠ q.2 := by
    rw [← List.pairwise_map (f := Prod.snd) (R := (· ≠ ·)), List.zipIdx_map_snd]
    exact List.nodup_range'
  refine hidx.imp ?_
  rintro ⟨tx?, i⟩ ⟨tx?', j⟩ hij row hrow row' hrow' heq
  obtain ⟨tx, -, hitem⟩ := Option.bind_eq_some_iff.mp hrow
  obtain ⟨tx', -, hitem'⟩ := Option.bind_eq_some_iff.mp hrow'
  rw [(scanItem_eq_some hitem).1, (scanItem_eq_some hitem').1] at heq
  exact hij (Nat.cast_injective (Prod.ext_iff.mp heq).2)

/-! ## The whole scan -/

theorem collectAccountTxHistory_eq (hword : isAnyWord account64 = true) (blocks : List ScanBlock) :
    collectAccountTxHistory platform registry sdk account64 blocks =
      (blocks.flatMap (scanBlock platform registry sdk (toLowerCase account64))).insertionSort
        fun a b => atLeast a b := by
  have hne : toLowerCase account64 ≠ [] := by
    intro h
    obtain rfl := List.map_eq_nil_iff.mp h
    exact absurd hword (by decide)
  rw [collectAccountTxHistory, normalizeHex64_of_isAnyWord hword, if_neg hne]

theorem rolesForAccountInTx_toLowerCase (nt : NumberText) (tx : ScanTx) (receipt : Value) :
    rolesForAccountInTx nt sdk (toLowerCase account64) tx receipt =
      rolesForAccountInTx nt sdk account64 tx receipt := by
  rw [rolesForAccountInTx_eq, toLowerCase_toLowerCase, ← rolesForAccountInTx_eq]

/-- **A row is the row of a transaction the account has a role in.** -/
theorem mem_collectAccountTxHistory (hword : isAnyWord account64 = true) {blocks : List ScanBlock} :
    row ∈ collectAccountTxHistory platform registry sdk account64 blocks ↔
      ∃ b ∈ blocks, ∃ i tx, b.txs[i]? = some (some tx) ∧
        scanItem platform registry sdk (toLowerCase account64) b tx i = some row := by
  rw [collectAccountTxHistory_eq hword, List.mem_insertionSort, List.mem_flatMap]
  exact exists_congr fun b => and_congr_right fun _ => mem_scanBlock

theorem nodup_places (platform : Platform) (registry : Registry) (sdk : Sdk)
    (hword : isAnyWord account64 = true) {blocks : List ScanBlock}
    (hdist : (blocks.map (·.height)).Nodup) :
    ((collectAccountTxHistory platform registry sdk account64 blocks).map (·.place)).Nodup := by
  rw [collectAccountTxHistory_eq hword, ((List.perm_insertionSort _ _).map _).nodup_iff,
    List.map_flatMap, List.nodup_flatMap]
  refine ⟨fun b _ => nodup_places_scanBlock, ?_⟩
  refine (List.pairwise_map.mp hdist).imp ?_
  intro b b' hb
  apply List.disjoint_left.mpr
  intro place hmem hmem'
  obtain ⟨row, hrow, rfl⟩ := List.mem_map.mp hmem
  obtain ⟨row', hrow', heq⟩ := List.mem_map.mp hmem'
  obtain ⟨i, tx, -, hitem⟩ := mem_scanBlock.mp hrow
  obtain ⟨i', tx', -, hitem'⟩ := mem_scanBlock.mp hrow'
  rw [(scanItem_eq_some hitem).1, (scanItem_eq_some hitem').1] at heq
  exact hb (Prod.ext_iff.mp heq).1.symm

/-- **Newest first, and no place twice.** -/
theorem pairwise_newer (hword : isAnyWord account64 = true) {blocks : List ScanBlock}
    (hdist : (blocks.map (·.height)).Nodup) :
    (collectAccountTxHistory platform registry sdk account64 blocks).Pairwise Newer := by
  have hplaces := nodup_places platform registry sdk hword hdist
  have hsorted : (collectAccountTxHistory platform registry sdk account64 blocks).Pairwise
      fun a b => atLeast a b := by
    rw [collectAccountTxHistory_eq hword]
    exact List.pairwise_insertionSort _ _
  refine (hsorted.and (List.pairwise_map.mp hplaces)).imp ?_
  rintro a b ⟨hle, hne⟩
  rcases atLeast_iff.mp hle with h | ⟨h, h'⟩
  · exact Or.inl h
  · refine Or.inr ⟨h, lt_of_le_of_ne h' fun e => hne ?_⟩
    rw [AccountTxHistoryItem.place, AccountTxHistoryItem.place, h, e]

/-- **A transaction has a row iff the account has a role in it.** -/
theorem place_mem_iff (hword : isAnyWord account64 = true) {blocks : List ScanBlock}
    (hdist : (blocks.map (·.height)).Nodup) (hblock : block ∈ blocks) (i : ℕ) :
    (block.height, (i : ℚ)) ∈
        (collectAccountTxHistory platform registry sdk account64 blocks).map (·.place) ↔
      HasRole platform.numberText sdk account64 block i := by
  rw [List.mem_map]
  constructor
  · rintro ⟨row, hrow, hplace⟩
    obtain ⟨b, hb, j, tx, hget, hitem⟩ := (mem_collectAccountTxHistory hword).mp hrow
    obtain ⟨hplace', hroles, hne⟩ := scanItem_eq_some hitem
    obtain ⟨hheight, hindex⟩ := Prod.ext_iff.mp (hplace'.symm.trans hplace)
    obtain rfl := List.inj_on_of_nodup_map hdist hb hblock hheight
    obtain rfl := Nat.cast_injective hindex
    rw [hroles, rolesForAccountInTx_toLowerCase] at hne
    exact ⟨tx, hget, hne⟩
  · rintro ⟨tx, hget, hne⟩
    rw [← rolesForAccountInTx_toLowerCase] at hne
    cases hitem : scanItem platform registry sdk (toLowerCase account64) block tx i with
    | none =>
      rw [scanItem, if_neg hne] at hitem
      cases hitem
    | some row =>
      exact ⟨row, (mem_collectAccountTxHistory hword).mpr ⟨block, hblock, i, tx, hget, hitem⟩,
        (scanItem_eq_some hitem).1⟩

end

/-- **The history is exact**: newest first, one row for each transaction the account has a role in,
with the roles it has. -/
theorem collectAccountTxHistory_exact (platform : Platform) (registry : Registry) (sdk : Sdk)
    {account64 : Text} (hword : isAnyWord account64 = true) {blocks : List ScanBlock}
    (hdist : (blocks.map (·.height)).Nodup) :
    (collectAccountTxHistory platform registry sdk account64 blocks).Pairwise Newer ∧
    (∀ b ∈ blocks, ∀ i : ℕ,
      let n := ((collectAccountTxHistory platform registry sdk account64 blocks).map
        (·.place)).count (b.height, (i : ℚ))
      (n = 1 ↔ HasRole platform.numberText sdk account64 b i) ∧ n ≤ 1) ∧
    (∀ row ∈ collectAccountTxHistory platform registry sdk account64 blocks, ∃ b ∈ blocks,
      ∃ (i : ℕ) (tx : ScanTx), b.txs[i]? = some (some tx) ∧ row.place = (b.height, (i : ℚ)) ∧
        row.roles = rolesForAccountInTx platform.numberText sdk account64 tx (b.receiptAt i)) ∧
    ∀ tx receipt,
      let roles := rolesForAccountInTx platform.numberText sdk account64 tx receipt
      roles.Nodup ∧ (.accessList ∈ roles → roles = [.accessList]) ∧
        (isFailed (receipt.get "success") = true → .created ∉ roles) := by
  refine ⟨pairwise_newer hword hdist, ?_, ?_, ?_⟩
  · intro b hb i
    dsimp only
    rw [(nodup_places platform registry sdk hword hdist).count, ← place_mem_iff hword hdist hb i]
    split
    next h => exact ⟨iff_of_true rfl h, le_rfl⟩
    next h => exact ⟨iff_of_false (by omega) h, Nat.zero_le 1⟩
  · intro row hrow
    obtain ⟨b, hb, i, tx, hget, hitem⟩ := (mem_collectAccountTxHistory hword).mp hrow
    obtain ⟨hplace, hroles, -⟩ := scanItem_eq_some hitem
    exact ⟨b, hb, i, tx, hget, hplace, hroles.trans (rolesForAccountInTx_toLowerCase _ _ _)⟩
  · intro tx receipt
    exact ⟨nodup_rolesForAccountInTx account64, rolesForAccountInTx_accessList,
      created_not_mem_of_failed⟩

namespace TwoBlocks

def wallet : Text := List.replicate 64 'a'

def platform : Platform := ⟨integersOnly, fun _ => none, fun _ => []⟩

def sdk : Sdk := ⟨fun _ => none, fun _ => none, fun _ _ _ => none, fun _ _ => none⟩

def bond : ScanTx :=
  { sender := .string wallet, nonce := .number (.ofNat 0), accessList := none
    payload := .object [("Bond", .object [("amount", .string "3")])] }

def reading : ScanTx :=
  { sender := .string [], nonce := .number (.ofNat 0)
    accessList := some ⟨some [.string wallet], none⟩
    payload := .object [("Transfer", .object [("to", .string []), ("amount", .string "2")])] }

def blocks : List ScanBlock :=
  [⟨3, none, some [none, some reading], none⟩, ⟨9, none, some [some bond], none⟩]

end TwoBlocks

open TwoBlocks in
/-- Two blocks, oldest first, with a missing transaction. -/
theorem collectAccountTxHistory_exact_twoBlocks :
    isAnyWord wallet = true ∧ (blocks.map (·.height)).Nodup ∧
      (collectAccountTxHistory platform Registry.empty sdk wallet blocks).Pairwise Newer ∧
      HasRole integersOnly sdk wallet ⟨3, none, some [none, some reading], none⟩ 1 ∧
      ((collectAccountTxHistory platform Registry.empty sdk wallet blocks).map (·.place)).count
        (3, ((1 : ℕ) : ℚ)) = 1 := by
  have hexact := collectAccountTxHistory_exact platform Registry.empty sdk
    (show isAnyWord wallet = true by decide)
    (show (blocks.map (·.height)).Nodup by decide +kernel)
  have hrole : HasRole integersOnly sdk wallet ⟨3, none, some [none, some reading], none⟩ 1 :=
    ⟨reading, rfl, by decide +kernel⟩
  exact ⟨by decide, by decide +kernel, hexact.1, hrole,
    ((hexact.2.1 _ List.mem_cons_self 1).1).mpr hrole⟩

end BoingObserver.Account
