import BoingObserver.Deploy.Address
import BoingObserver.Oracle

/-!
# Finding a contract's deploy

`lookupContractCode` of `contract-code-lookup.ts`, as a program that asks a node
for pages of account history and for blocks.

The earliest callers of the contract are taken as candidate deployers; their own
deploy rows name blocks, and the transactions of those blocks are tried until the
predicted address of one is the contract's.  A row without `tx_index` tries every
transaction of its block.
-/

namespace BoingObserver.Deploy

open Js Rpc Payload Oracle

/-! ## The node -/

/-- A row of `boing_getAccountTransactions`; `kind` and `contract` are its payload's. -/
structure TxRow where
  blockHeight : Value
  txIndex : Value
  direction : Value
  sender : Value
  kind : Value
  contract : Value

structure Page where
  transactions : Option (List TxRow)
  nextCursor : Option Text

structure Block where
  transactions : Option (List Value)

inductive Query
  | accountTransactions (account : Text) (cursor : Option Text)
  | blockByHeight (height : ℤ)
  deriving DecidableEq

/-- Answers; `none` is a rejected call, and a block may be `null`. -/
def Answer : Query → Type
  | .accountTransactions _ _ => Option Page
  | .blockByHeight _ => Option (Option Block)

def accountTransactions (account : Text) (cursor : Option Text) : Prog Answer (Option Page) :=
  Prog.query (Query.accountTransactions account cursor)

def blockByHeight (height : ℤ) : Prog Answer (Option (Option Block)) :=
  Prog.query (Query.blockByHeight height)

/-! ## Account history -/

/-- The pages after the first, up to `n` of them; a failing page ends the list. -/
def laterRows (account : Text) : ℕ → Text → Prog Answer (List TxRow)
  | 0, _ => pure []
  | n + 1, cursor => do
    match ← accountTransactions account (some cursor) with
    | none => return []
    | some page =>
      let rows := page.transactions.getD []
      match page.nextCursor with
      | some (c :: cs) => return rows ++ (← laterRows account n (c :: cs))
      | _ => return rows

/-- All rows of an account, up to `n + 1` pages; `null` when the first page fails. -/
def allRows (account : Text) (n : ℕ) : Prog Answer (Option (List TxRow)) := do
  match ← accountTransactions account none with
  | none => return none
  | some page =>
    let rows := page.transactions.getD []
    match page.nextCursor with
    | some (c :: cs) => return some (rows ++ (← laterRows account n (c :: cs)))
    | _ => return some rows

/-- Candidate deployers: the callers, oldest first, then the given ones; each once. -/
def senders (calls : List TxRow) (extraDeployers : List Text) : List Text :=
  ((calls.reverse.map fun r => h64 r.sender) ++ extraDeployers.map fun d => h64 (.string d)).filter
    (· ≠ []) |>.eraseDups

section

variable (nt : NumberText) (sdk : Sdk)

def deployHeight (r : TxRow) : Option ℤ :=
  let kind := nt.stringOf (r.kind.orElse (.string []))
  match r.direction, r.blockHeight with
  | .string dir, .number h =>
    if dir = "out" ∧ ("contract_deploy" : Text).isPrefixOf kind then h.toInt? else none
  | _, _ => none

/-! ## Blocks -/

structure SearchState where
  blocksLeft : ℤ
  blockCache : List (ℤ × Option Block)

/-- The block of a height, from the cache or the node; `none` when the budget is spent. -/
def fetchBlock (height : ℤ) (st : SearchState) :
    Prog Answer (Option (Option Block) × SearchState) :=
  match st.blockCache.lookup height with
  | some block => pure (some block, st)
  | none =>
    let left := st.blocksLeft - 1
    if st.blocksLeft ≤ 0 then pure (none, { st with blocksLeft := left })
    else do
      let block := (← blockByHeight height).join
      return (some block, ⟨left, (height, block) :: st.blockCache⟩)

def Block.txs (block : Option Block) : List Value := (block.bind (·.transactions)).getD []

/-- The integer `tx_index` of a row. -/
def TxRow.index (r : TxRow) : Option ℤ :=
  match r.txIndex with
  | .number x => x.toInt?
  | _ => none

def candidates (r : TxRow) (block : Option Block) : List (ℕ × Value) :=
  let txs := Block.txs block
  match r.index with
  | some (.ofNat i) => txs[i]?.toList.map fun tx => (i, tx)
  | some (.negSucc _) => []
  | none => txs.zipIdx.map fun p => (p.2, p.1)

def deploysTo (target : Text) (tx : Value) : Option Text :=
  match tryPredictDeployedContractAddressFromDeployTx nt sdk tx with
  | some (c :: cs) =>
    if toLowerCase (c :: cs) = target then
      (extractBytecodeHex nt (tx.get "payload")).filter (· ≠ [])
    else none
  | _ => none

/-! ## The search -/

structure ContractCodeInfo where
  bytecodeHex : Text
  deployer : Text
  height : ℤ
  txIndex : ℕ

def searchTxs (target deployer : Text) (height : ℤ) :
    List (ℕ × Value) → Option ContractCodeInfo
  | [] => none
  | (i, tx) :: rest =>
    match deploysTo nt sdk target tx with
    | some bytecodeHex => some ⟨bytecodeHex, deployer, height, i⟩
    | none => searchTxs target deployer height rest

/-- The deploy rows of one account; a spent budget ends them. -/
def searchDeploys (target deployer : Text) :
    List TxRow → SearchState → Prog Answer (Option ContractCodeInfo × SearchState)
  | [], st => pure (none, st)
  | r :: rows, st =>
    match deployHeight nt r with
    | none => searchDeploys target deployer rows st
    | some height => do
      match ← fetchBlock height st with
      | (none, st) => return (none, st)
      | (some block, st) =>
        match searchTxs nt sdk target deployer height (candidates r block) with
        | some code => return (some code, st)
        | none => searchDeploys target deployer rows st

def searchDeployers (target : Text) :
    List Text → SearchState → Prog Answer (Option ContractCodeInfo)
  | [], _ => pure none
  | deployer :: rest, st => do
    match ← allRows deployer 9 with
    | none => searchDeployers target rest st
    | some drows =>
      match ← searchDeploys nt sdk target deployer drows st with
      | (some code, _) => return some code
      | (none, st) => searchDeployers target rest st

structure ContractCodeLookup where
  calledAsContract : Bool
  callCount : ℕ
  code : Option ContractCodeInfo
  historyUnsupported : Bool := false

structure LookupOpts where
  extraDeployers : List Text := []
  maxDeployers : ℕ := 3
  maxBlocks : ℤ := 40

def lookupContractCode (address64 : Text) (opts : LookupOpts) : Prog Answer ContractCodeLookup := do
  let target := h64 (.string address64)
  match ← allRows target 9 with
  | none => return { calledAsContract := false, callCount := 0, code := none,
                     historyUnsupported := true }
  | some rows =>
    let calls := rows.filter fun r => h64 r.contract = target
    let deployers := (senders calls opts.extraDeployers).take opts.maxDeployers
    let code ← searchDeployers nt sdk target deployers ⟨opts.maxBlocks, []⟩
    return { calledAsContract := calls.length > 0, callCount := calls.length, code }

end

end BoingObserver.Deploy
