import BoingObserver.Oracle
import BoingObserver.Payload.Catalog
import BoingObserver.Rpc.Hex
import Mathlib.Data.List.Sort

/-!
# Indexed account history

`fetchIndexedWindow` of `api/account/history/route.ts` with
`collectIndexedAccountTxHistory` of `account-tx-history.ts`: the pages of an
account's history, newest first, down to a floor, as the rows the page shows.
-/

namespace BoingObserver.Account

open Js Rpc Payload Oracle

/-! ## Rows -/

structure IndexedStep where
  kind : Value

structure IndexedPayload where
  kind : Option Text
  amount : Value
  calldataLen : Value
  steps : Option (List IndexedStep)

/-- A row of `boing_getAccountTransactions`; a height or index is a finite number, if any. -/
structure IndexedAccountTxRow where
  txId : Value
  blockHeight : Option ℚ
  txIndex : Option ℚ
  timestamp : Option Number
  sender : Value
  roles : Option (List Text)
  payload : Option IndexedPayload
  success : Value

inductive AccountTxRole
  | sender
  | recipient
  | contract
  | created
  | accessList
  deriving DecidableEq

structure AccountTxHistoryItem where
  blockHeight : ℚ
  txIndex : ℚ
  timestamp : Option Number
  txId : Option Text
  sender : Text
  kind : TxPayloadKind
  summary : Text
  roles : List AccountTxRole
  /-- Receipt `success: false` (included, state reverted). -/
  failed : Bool

/-! ## One row as an item -/

def mapIndexedKind (kind : Option Text) : TxPayloadKind :=
  let raw := trim (kind.getD [])
  if raw = [] then .unknown else (resolveTaggedPayloadKind raw).getD .unknown

def mapIndexedRole (role : Text) : Option AccountTxRole :=
  let k := toLowerCase role
  if k = "sender" ∨ k = "signer" then some .sender
  else if k = "recipient" ∨ k = "to" then some .recipient
  else if k = "contract" ∨ k = "counterparty" ∨ k = "called_contract" then some .contract
  else if k = "created" ∨ k = "deployed" then some .created
  else if k = "access_list" then some .accessList
  else none

def mapIndexedRoles (raw : Option (List Text)) : List AccountTxRole :=
  ((raw.getD []).filterMap mapIndexedRole).eraseDups

/-- `n === 1 ? "" : "s"` -/
def plural (n : ℕ) : Text := if n = 1 then "" else "s"

section

variable (nt : NumberText)

def batchSummary (steps : List IndexedStep) : Text :=
  let n := steps.length
  let tokenSteps := (steps.filter fun s =>
    includes (toLowerCase (nt.stringOf (s.kind.orElse (.string [])))) "contract").length
  "Batch · " ++ decimal n ++ " step" ++ plural n ++
    if tokenSteps > 0 then
      " (" ++ decimal tokenSteps ++ " contract call" ++ plural tokenSteps ++ ")"
    else ""

def summaryFromIndexedPayload (payload : Option IndexedPayload) : Text :=
  match payload with
  | none => "Transaction"
  | some payload =>
    match payload.kind with
    | none => "Transaction"
    | some [] => "Transaction"
    | some name =>
      let kind := toLowerCase name
      if kind = "transfer" then
        "Transfer " ++
          nt.stringOf (if payload.amount.isNullish then .string "?" else payload.amount)
      else if kind = "contract_call" ∨ kind = "contract_call_with_value" then
        if payload.calldataLen.isNullish then "Contract call"
        else "Contract call (" ++ nt.stringOf payload.calldataLen ++ " bytes calldata)"
      else if kind = "batch" then batchSummary nt (payload.steps.getD [])
      else if includes kind "deploy" then "Contract deploy"
      else name

def isFailed (success : Value) : Bool :=
  match success with
  | .bool success => !success
  | _ => false

/-- A 64-digit id, or nothing. -/
def asAccount64 (value : Value) : Text :=
  let h := hexForLink nt value
  if h.length = 64 then h else []

def rowTxId (txId : Value) : Option Text :=
  match txId with
  | .string s =>
    match normalizeHex64 (strip0x s) with
    | [] => none
    | id => some id
  | _ => none

def rowItem (row : IndexedAccountTxRow) (blockHeight : ℚ) : AccountTxHistoryItem where
  blockHeight := blockHeight
  txIndex := row.txIndex.getD 0
  timestamp := row.timestamp
  txId := rowTxId row.txId
  sender := asAccount64 nt row.sender
  kind := mapIndexedKind (row.payload.bind (·.kind))
  summary :=
    summaryFromIndexedPayload nt row.payload ++
      if isFailed row.success then " · failed, nothing transferred" else ""
  roles := if mapIndexedRoles row.roles = [] then [.contract] else mapIndexedRoles row.roles
  failed := isFailed row.success

/-! ## Collecting -/

/-- `b.blockHeight - a.blockHeight || b.txIndex - a.txIndex` is not positive. -/
def atLeast (a b : AccountTxHistoryItem) : Bool :=
  b.blockHeight < a.blockHeight || (b.blockHeight = a.blockHeight && b.txIndex ≤ a.txIndex)

def collectItem (minHeight : ℚ) (row : IndexedAccountTxRow) : Option AccountTxHistoryItem :=
  match row.blockHeight with
  | none => none
  | some h => if h < minHeight then none else some (rowItem nt row h)

/-- Map node-indexed account txs into the explorer history row shape. -/
def collectIndexedAccountTxHistory (rows : List IndexedAccountTxRow) (minHeight : ℚ) :
    List AccountTxHistoryItem :=
  (rows.filterMap (collectItem nt minHeight)).insertionSort fun a b => atLeast a b

/-! ## Paging -/

structure IndexedPage where
  transactions : Option (List IndexedAccountTxRow)
  nextCursor : Option Text

/-- A call of `boing_getAccountTransactions`. -/
structure PageQuery where
  account : Text
  cursor : Option Text

/-- `none` is a call that failed. -/
def PageAnswer (_ : PageQuery) : Type := Option IndexedPage

def getAccountTransactions (account : Text) (cursor : Option Text) :
    Prog PageAnswer (Option IndexedPage) :=
  Prog.query (PageQuery.mk account cursor)

structure IndexedWindow where
  items : List AccountTxHistoryItem
  pages : ℕ
  supported : Bool

def aboveFloor (fromHeight : ℚ) (row : IndexedAccountTxRow) : Bool :=
  !(row.blockHeight.getD 0 < fromHeight)

/-- The loop of `fetchIndexedWindow` with `n` pages to go; `pages` are read, as are `rows`. -/
def fetchPages (address64 : Text) (fromHeight : ℚ) :
    ℕ → Option Text → List IndexedAccountTxRow → ℕ → Prog PageAnswer IndexedWindow
  | 0, _, rows, pages => pure ⟨collectIndexedAccountTxHistory nt rows fromHeight, pages, true⟩
  | n + 1, cursor, rows, pages => do
    match ← getAccountTransactions address64 cursor with
    | none => return ⟨[], pages, 0 < pages⟩
    | some result =>
      let batch := result.transactions.getD []
      let kept := batch.takeWhile (aboveFloor fromHeight)
      -- Newest-first: once we cross the window floor, stop paging.
      if kept.length = batch.length then
        match result.nextCursor with
        | some (c :: cs) =>
          fetchPages address64 fromHeight n (some (c :: cs)) (rows ++ kept) (pages + 1)
        | _ => return ⟨collectIndexedAccountTxHistory nt (rows ++ kept) fromHeight, pages + 1, true⟩
      else return ⟨collectIndexedAccountTxHistory nt (rows ++ kept) fromHeight, pages + 1, true⟩

/-- The items of the window from `fromHeight` on, from up to 16 pages. -/
def fetchIndexedWindow (address64 : Text) (fromHeight : ℚ) : Prog PageAnswer IndexedWindow :=
  fetchPages nt address64 fromHeight 16 none [] 0

end

end BoingObserver.Account
