import BoingObserver.Account.History
import BoingObserver.Supply.Batch
import Mathlib.Data.List.Sort
import Mathlib.Data.Prod.Lex

/-!
# The search for the initial mint

`resolveFungibleTotalSupplyFromMintFirst` of `fungible-mint-supply.ts`: the pages of a
token's history give candidates, and the oldest of these are looked up in their blocks
until one turns out to be `mint_first`.

* `collectCandidates_perm`: the candidates of a history do not depend on its pages.
* `inspected_smallest`: those inspected are the smallest by height and index.
* `inspectCandidate_eq`: a candidate gives its mint, unless that is in the `calls` of a
  batch.
* `picksFirst_iff`: when the search returns the first mint.
-/

namespace BoingObserver.Supply

open Js Rpc Payload Contract
open Account (isFailed rowTxId)

/-! ## The node's answers -/

structure IndexedTxStep where
  kind : Option Text
  contract : Value
  calldataLen : Option ℕ

structure IndexedTxPayload where
  kind : Option Text
  contract : Value
  calldataLen : Option ℕ
  steps : Option (List IndexedTxStep)

/-- A row of `boing_getAccountTransactions`. -/
structure IndexedTxRow where
  blockHeight : Option ℕ
  txIndex : Option ℕ
  txId : Value
  success : Value
  payload : Option IndexedTxPayload

structure TxPage where
  transactions : Option (List IndexedTxRow)
  nextCursor : Option Text

/-- A block: the payloads of its transactions (`none` stands for what is no object), and the
receipts. -/
structure TxBlock where
  transactions : List (Option Value)
  receipts : List Value

/-- What the node answers to each call, by its number; `none` is a call that fails, or no block. -/
structure Node where
  accountTransactions : ℕ → Option Text → Option TxPage
  blockByHeight : ℕ → ℕ → Option TxBlock

/-! ## Candidates -/

structure ResolveOptions where
  maxPages : Option ℕ
  maxCandidates : Option ℕ

structure FungibleTotalSupply where
  amount : Text
  mintTo : Text
  mintTxId : Option Text
  mintBlockHeight : ℕ
  source : Text

/-- `block_height ?? 0`, and `tx_index ?? 0` among rows of one height. -/
def IndexedTxRow.key (row : IndexedTxRow) : ℕ ×ₗ ℕ :=
  toLex (row.blockHeight.getD 0, row.txIndex.getD 0)

section

variable (nt : NumberText) (node : Node) (token64 : Text)

def rowLooksLikeMintCandidate (row : IndexedTxRow) : Bool :=
  let isCall (contract : Value) (calldataLen : Option ℕ) : Bool :=
    toLowerCase (hexForLink nt contract) = toLowerCase token64 && 96 ≤ calldataLen.getD 0
  if isFailed row.success then false
  else
    match row.payload with
    | none => false
    | some p =>
      if p.kind = some "contract_call" && isCall p.contract p.calldataLen then true
      else if p.kind = some "batch" then
        (p.steps.getD []).any fun s =>
          (s.kind = some "contract_call" || includes (s.kind.getD []) "contract") &&
            isCall s.contract s.calldataLen
      else false

def pageCandidates (rows : List IndexedTxRow) : List IndexedTxRow :=
  rows.reverse.filter (rowLooksLikeMintCandidate nt token64)

/-- The loop over the pages, with `n` to go. -/
def collectCandidates : ℕ → ℕ → Option Text → List IndexedTxRow
  | 0, _, _ => []
  | n + 1, page, cursor =>
    match node.accountTransactions page cursor with
    | none => []
    | some result =>
      pageCandidates nt token64 (result.transactions.getD []) ++
        match result.nextCursor with
        | some (c :: cs) => collectCandidates n (page + 1) (some (c :: cs))
        | _ => []

def candidates (opts : ResolveOptions) : List IndexedTxRow :=
  collectCandidates nt node token64 (opts.maxPages.getD 12) 0 none

/-- Oldest first among collected candidates, numbered. -/
def inspected (opts : ResolveOptions) : List (IndexedTxRow × ℕ) :=
  (((candidates nt node token64 opts).insertionSort fun a b => a.key ≤ b.key).take
    (opts.maxCandidates.getD 8)).zipIdx

def supplyOf (row : IndexedTxRow) (height : ℕ) (receipt : Value) (decoded : MintFirstDecoded) :
    FungibleTotalSupply where
  amount := decoded.amount
  mintTo := decoded.to'
  mintTxId := (rowTxId (receipt.get "tx_id")).or (rowTxId row.txId)
  mintBlockHeight := height
  source := "mint_first"

def inspectCandidate (c : IndexedTxRow × ℕ) : Except JsError (Option FungibleTotalSupply) :=
  match c.1.blockHeight, c.1.txIndex with
  | some height, some txIndex =>
    match node.blockByHeight c.2 height with
    | none => pure none
    | some block =>
      match (block.transactions[txIndex]?).join with
      | none => pure none
      | some payload =>
        let receipt := (block.receipts[txIndex]?).getD .null
        if isFailed (receipt.get "success") then pure none
        else do
          let calldata ← calldataFromTxPayload nt payload token64
          pure ((calldata.bind (parseMintFirstFromCalldata nt)).map
            (supplyOf c.1 height receipt))
  | _, _ => pure none

/-- The loop over the candidates: where it stops, and what it returns there. -/
def firstSupply : List (IndexedTxRow × ℕ) →
    Except JsError (Option ((IndexedTxRow × ℕ) × FungibleTotalSupply))
  | [] => pure none
  | c :: rest => do
    match ← inspectCandidate nt node token64 c with
    | some supply => pure (some (c, supply))
    | none => firstSupply rest

end

/-- `normalizeHex64(tokenAddress64.replace(/^0x/i, ""))` -/
def tokenOf (tokenAddress64 : Text) : Text := normalizeHex64 (strip0x tokenAddress64)

def resolveFungibleTotalSupplyFromMintFirst (nt : NumberText) (node : Node)
    (tokenAddress64 : Text) (opts : ResolveOptions) :
    Except JsError (Option FungibleTotalSupply) :=
  let token64 := tokenOf tokenAddress64
  if token64 = [] then pure none
  else
    (firstSupply nt node token64 (inspected nt node token64 opts)).map fun found =>
      found.map Prod.snd

/-! ## Transactions and what they mint -/

/-- A call in the forms that the search looks at, or anything that is no object. -/
inductive CallForm
  | other (v : Value) (h : asRecord? v = none)
  | tagged (tag : Text) (body : Value)
  /-- Flat `{ kind, contract, calldata }` -/
  | flat (fields : Fields) (h : ∀ tag ∈ (["ContractCall", "ContractCallWithValue", "Batch"] :
      List Text), fields.get tag = .undefined)

def CallForm.value : CallForm → Value
  | .other v _ => v
  | .tagged tag body => .object [(tag, body)]
  | .flat fields _ => .object fields

def CallForm.IsBatch : CallForm → Prop
  | .tagged tag _ => tag = "Batch"
  | _ => False

/-- The payload of a transaction: a call, or a batch with its steps in a field of some name. -/
inductive TxPayload
  | call (form : CallForm) (h : ¬ form.IsBatch)
  | batch (field : Text) (steps : List CallForm)

def TxPayload.value : TxPayload → Value
  | .call form _ => form.value
  | .batch field steps => .object [("Batch", .object [(field, .array (steps.map CallForm.value))])]

section

variable (nt : NumberText) (token : Text)

/-- What a call of `mint_first` to the token mints. -/
def callMint (contract calldata : Value) : Option MintFirstDecoded :=
  if toLowerCase (hexForLink nt contract) = toLowerCase token then
    parseMintFirstFromCalldata nt calldata
  else none

def CallForm.mint? : CallForm → Option MintFirstDecoded
  | .other _ _ => none
  | .tagged tag body =>
    if tag = "ContractCall" ∨ tag = "ContractCallWithValue" then
      callMint nt token (body.get "contract") (body.get "calldata")
    else none
  | .flat fields _ =>
    if saysContract nt fields then
      callMint nt token (fields.get "contract") (fields.get "calldata")
    else none

/-- What a transaction mints: of a batch, the first step that does; the node sends its steps in
`calls`. -/
def TxPayload.mint? : TxPayload → Option MintFirstDecoded
  | .call form _ => form.mint? nt token
  | .batch field steps =>
    if field = "calls" ∨ field = "steps" then steps.findSome? (CallForm.mint? nt token) else none

end

def TxPayload.InCalls : TxPayload → Prop
  | .call _ _ => False
  | .batch field _ => field = "calls"

instance (p : TxPayload) : Decidable p.InCalls :=
  match p with
  | .call _ _ => inferInstanceAs (Decidable False)
  | .batch field _ => inferInstanceAs (Decidable (field = "calls"))

/-! ## What the search reads of a transaction -/

section

variable {nt : NumberText} {token : Text}

theorem tryCall_bind (body : Fields) :
    (tryCall nt (toLowerCase token) body).bind (parseMintFirstFromCalldata nt) =
      callMint nt token (body.get "contract") (body.get "calldata") := by
  rw [tryCall, callMint]
  by_cases hto : toLowerCase (hexForLink nt (body.get "contract")) = toLowerCase token
  · rw [if_neg (not_not.mpr hto), if_pos hto]
    cases body.get "calldata" <;> rfl
  · rw [if_pos hto, if_neg hto]
    rfl

theorem tryMint_bind (body : Fields) :
    (tryMint nt (toLowerCase token) body).bind (parseMintFirstFromCalldata nt) =
      callMint nt token (body.get "contract") (body.get "calldata") := by
  rw [← tryCall_bind, tryMint]
  cases tryCall nt (toLowerCase token) body with
  | none => rfl
  | some cd =>
    rw [Option.filter_some]
    cases h : parseMintFirstFromCalldata nt cd with
    | none => simp [h]
    | some m => simp [h]

theorem asRecord?_tryMint_bind (body : Value) :
    ((asRecord? body).bind (tryMint nt (toLowerCase token))).bind (parseMintFirstFromCalldata nt) =
      callMint nt token (body.get "contract") (body.get "calldata") := by
  cases body with
  | object fields => exact tryMint_bind fields
  | array items => exact tryMint_bind []
  | _ => exact (ite_self none).symm

theorem asRecord?_tryCall_bind {body : Value} {fields : Fields}
    (h : asRecord? body = some fields) :
    (tryCall nt (toLowerCase token) fields).bind (parseMintFirstFromCalldata nt) =
      callMint nt token (body.get "contract") (body.get "calldata") := by
  rw [tryCall_bind]
  cases body with
  | object fields' =>
    obtain rfl := Option.some.inj h
    rfl
  | array items =>
    obtain rfl := Option.some.inj h
    rfl
  | _ => cases h

theorem callMint_of_not_record {body : Value} (h : asRecord? body = none) :
    callMint nt token (body.get "contract") (body.get "calldata") = none := by
  cases body with
  | object fields => cases h
  | array items => cases h
  | _ => exact ite_self none

/-- The fields of one tag and its body are no flat call that mints. -/
theorem flat_singleton (tag : Text) (body : Value) :
    (if saysContract nt [(tag, body)] then
      callMint nt token (Fields.get [(tag, body)] "contract") (Fields.get [(tag, body)] "calldata")
    else none) = none := by
  by_cases hdata : tag = "calldata"
  · subst hdata
    rfl
  · rw [get_singleton_of_ne body (Ne.symm hdata)]
    have hnone : callMint nt token (Fields.get [(tag, body)] "contract") .undefined = none :=
      ite_self none
    rw [hnone, ite_self]

/-- What a flat call mints, for a search that finds the calldata of every call. -/
theorem flat_bind {find : Fields → Option Value}
    (hfind : ∀ body, (find body).bind (parseMintFirstFromCalldata nt) =
      callMint nt token (body.get "contract") (body.get "calldata")) (fields : Fields) :
    (if saysContract nt fields then find fields else none).bind (parseMintFirstFromCalldata nt) =
      if saysContract nt fields then
        callMint nt token (fields.get "contract") (fields.get "calldata") else none := by
  split
  · exact hfind fields
  · rfl

/-- **A step gives calldata of its mint.** -/
theorem stepCalldata_bind (form : CallForm) :
    ((asRecord? form.value).bind (stepCalldata nt (toLowerCase token))).bind
      (parseMintFirstFromCalldata nt) = form.mint? nt token := by
  cases form with
  | other v h =>
    rw [CallForm.value, h]
    rfl
  | tagged tag body =>
    change (stepCalldata nt (toLowerCase token) [(tag, body)]).bind _ = _
    rw [CallForm.mint?]
    by_cases hcall : tag = "ContractCall" ∨ tag = "ContractCallWithValue"
    · rw [stepCalldata_call hcall, asRecord?_tryMint_bind, if_pos hcall]
    · rw [stepCalldata_flat hcall, if_neg hcall]
      exact (flat_bind tryMint_bind [(tag, body)]).trans (flat_singleton tag body)
  | flat fields h =>
    change (stepCalldata nt (toLowerCase token) fields).bind _ = _
    rw [stepCalldata, h "ContractCall" (by decide), h "ContractCallWithValue" (by decide)]
    exact flat_bind tryMint_bind fields

theorem stepCalldata_isSome {fields : Fields} {cd : Value}
    (h : stepCalldata nt (toLowerCase token) fields = some cd) :
    (parseMintFirstFromCalldata nt cd).isSome = true := by
  have hbody {body : Value}
      (hb : (asRecord? body).bind (tryMint nt (toLowerCase token)) = some cd) :
      (parseMintFirstFromCalldata nt cd).isSome = true := (asRecord?_tryMint_iff.mp hb).2.2
  rw [stepCalldata, Option.or_eq_some_iff, Option.or_eq_some_iff] at h
  rcases h with h | ⟨-, h | ⟨-, h⟩⟩
  · exact hbody h
  · exact hbody h
  · obtain ⟨-, h⟩ := Option.ite_none_right_eq_some.mp h
    exact (tryMint_eq_some_iff.mp h).2.2

/-- **The steps of a batch give calldata of the first mint.** -/
theorem findSome?_stepCalldata_bind (steps : List CallForm) :
    ((steps.map CallForm.value).findSome? fun v =>
        (asRecord? v).bind (stepCalldata nt (toLowerCase token))).bind
      (parseMintFirstFromCalldata nt) = steps.findSome? (CallForm.mint? nt token) := by
  induction steps with
  | nil => rfl
  | cons form steps ih =>
    rw [List.map_cons, List.findSome?_cons, List.findSome?_cons, ← stepCalldata_bind form]
    cases hstep : (asRecord? form.value).bind (stepCalldata nt (toLowerCase token)) with
    | none => exact ih
    | some cd =>
      obtain ⟨fields, -, hcd⟩ := Option.bind_eq_some_iff.mp hstep
      obtain ⟨m, hm⟩ := Option.isSome_iff_exists.mp (stepCalldata_isSome hcd)
      change parseMintFirstFromCalldata nt cd = _
      rw [Option.bind_some, hm]

section

variable {v : Value} {p : Fields} (hp : asRecord? v = some p)
include hp

theorem calldataFromTxPayload_of_body {body : Fields}
    (hcall : (asRecord? (p.get "ContractCall")).or (asRecord? (p.get "ContractCallWithValue")) =
      some body) :
    calldataFromTxPayload nt v token = .ok (tryCall nt (toLowerCase token) body) := by
  rw [calldataFromTxPayload, hp]
  dsimp only
  rw [hcall]

theorem calldataFromTxPayload_of_flat
    (hcall : (asRecord? (p.get "ContractCall")).or (asRecord? (p.get "ContractCallWithValue")) =
      none) (hbatch : asRecord? (p.get "Batch") = none) :
    calldataFromTxPayload nt v token =
      .ok (if saysContract nt p then tryCall nt (toLowerCase token) p else none) := by
  rw [calldataFromTxPayload, hp]
  dsimp only
  rw [hcall, hbatch]

end

/-- **The calldata found in a payload that is no batch** is that of its mint, if it has one. -/
theorem calldataFromTxPayload_call {form : CallForm} (h : ¬ form.IsBatch) :
    ∃ found, calldataFromTxPayload nt form.value token = .ok found ∧
      found.bind (parseMintFirstFromCalldata nt) = form.mint? nt token := by
  cases form with
  | other v hv =>
    refine ⟨none, ?_, rfl⟩
    rw [CallForm.value, calldataFromTxPayload, hv]
  | flat fields hf =>
    have hcall : (asRecord? (fields.get "ContractCall")).or
        (asRecord? (fields.get "ContractCallWithValue")) = none := by
      rw [hf "ContractCall" (by decide), hf "ContractCallWithValue" (by decide)]
      rfl
    have hbatch : asRecord? (fields.get "Batch") = none := by
      rw [hf "Batch" (by decide)]
      rfl
    exact ⟨_, calldataFromTxPayload_of_flat rfl hcall hbatch, flat_bind tryCall_bind fields⟩
  | tagged tag body =>
    have hbatch : asRecord? (Fields.get [(tag, body)] "Batch") = none := by
      rw [get_singleton_of_ne body (Ne.symm h)]
      rfl
    rw [CallForm.mint?]
    by_cases hc : tag = "ContractCall" ∨ tag = "ContractCallWithValue"
    · have hcall : (asRecord? (Fields.get [(tag, body)] "ContractCall")).or
          (asRecord? (Fields.get [(tag, body)] "ContractCallWithValue")) = asRecord? body := by
        rcases hc with rfl | rfl
        · exact Option.or_none
        · exact Option.none_or
      rw [if_pos hc]
      cases hbody : asRecord? body with
      | some fields =>
        rw [hbody] at hcall
        exact ⟨_, calldataFromTxPayload_of_body rfl hcall, asRecord?_tryCall_bind hbody⟩
      | none =>
        rw [hbody] at hcall
        refine ⟨_, calldataFromTxPayload_of_flat rfl hcall hbatch, ?_⟩
        rw [callMint_of_not_record hbody]
        exact (flat_bind tryCall_bind _).trans (flat_singleton tag body)
    · have hcall : (asRecord? (Fields.get [(tag, body)] "ContractCall")).or
          (asRecord? (Fields.get [(tag, body)] "ContractCallWithValue")) = none := by
        obtain ⟨hcall, hvalue⟩ := not_or.mp hc
        rw [get_singleton_of_ne body (Ne.symm hcall), get_singleton_of_ne body (Ne.symm hvalue)]
        rfl
      rw [if_neg hc]
      exact ⟨_, calldataFromTxPayload_of_flat rfl hcall hbatch,
        (flat_bind tryCall_bind _).trans (flat_singleton tag body)⟩

/-- What the search reads of a batch: the steps in `steps`. -/
theorem calldataFromTxPayload_batch (nt : NumberText) (token : Text) (field : Text)
    (steps : List CallForm) :
    ∃ found, calldataFromTxPayload nt (TxPayload.batch field steps).value token = .ok found ∧
      found.bind (parseMintFirstFromCalldata nt) =
        if field = "steps" then steps.findSome? (CallForm.mint? nt token) else none := by
  by_cases hfield : field = "steps"
  · subst hfield
    have hsearch : calldataFromTxPayload nt (TxPayload.batch "steps" steps).value token =
        .ok (((steps.map CallForm.value).findSome? fun v =>
          (asRecord? v).bind (stepCalldata nt (toLowerCase token))).or none) := rfl
    refine ⟨_, hsearch, ?_⟩
    rw [Option.or_none, if_pos rfl]
    exact findSome?_stepCalldata_bind steps
  · refine ⟨none, ?_, ?_⟩
    · have hread : calldataFromTxPayload nt (TxPayload.batch field steps).value token =
          (batchCalldata nt (toLowerCase token)
            [(field, .array (steps.map CallForm.value))]).map fun found => found.or none := rfl
      rw [hread, batchCalldata, get_singleton_of_ne _ (Ne.symm hfield)]
      rfl
    · rw [if_neg hfield]
      rfl

/-- **What the search makes of a transaction**: its mint, unless it is a batch of the node. -/
theorem calldataFromTxPayload_bind (nt : NumberText) (token : Text) (p : TxPayload) :
    ∃ found, calldataFromTxPayload nt p.value token = .ok found ∧
      found.bind (parseMintFirstFromCalldata nt) =
        if p.InCalls then none else p.mint? nt token := by
  cases p with
  | call form h => exact calldataFromTxPayload_call h
  | batch field steps =>
    obtain ⟨found, hfound, hmint⟩ := calldataFromTxPayload_batch nt token field steps
    refine ⟨found, hfound, hmint.trans ?_⟩
    rw [TxPayload.mint?]
    by_cases hcalls : field = "calls"
    · subst hcalls
      rfl
    · rw [if_neg (show ¬ (TxPayload.batch field steps).InCalls from hcalls)]
      by_cases hsteps : field = "steps"
      · rw [if_pos hsteps, if_pos (Or.inr hsteps)]
      · rw [if_neg hsteps, if_neg (not_or.mpr ⟨hcalls, hsteps⟩)]

end

/-! ## The chain -/

/-- A block whose transactions have payloads of these forms. -/
structure ChainBlock where
  transactions : List (Option TxPayload)
  receipts : List Value

def ChainBlock.block (b : ChainBlock) : TxBlock :=
  ⟨b.transactions.map (Option.map TxPayload.value), b.receipts⟩

/-- The pages and the blocks of a chain, by the number of the call; a read may fail. -/
structure Chain where
  pages : ℕ → Option Text → Option TxPage
  blocks : ℕ → ℕ → Option ChainBlock

def Chain.node (chain : Chain) : Node :=
  ⟨chain.pages, fun i height => (chain.blocks i height).map ChainBlock.block⟩

/-- A transaction that is not said to have failed, where it is and with its receipt. -/
structure FoundTx where
  height : ℕ
  payload : TxPayload
  receipt : Value

section

variable (nt : NumberText) (chain : Chain) (token : Text)

/-- The transaction of a row, if its block could be read and no receipt says that it failed. -/
def Chain.txAt (c : IndexedTxRow × ℕ) : Option FoundTx := do
  let height ← c.1.blockHeight
  let txIndex ← c.1.txIndex
  let block ← chain.blocks c.2 height
  let payload ← (block.transactions[txIndex]?).join
  let receipt := (block.receipts[txIndex]?).getD .null
  if isFailed (receipt.get "success") then none else some ⟨height, payload, receipt⟩

def Chain.mintAt (c : IndexedTxRow × ℕ) : Option FungibleTotalSupply :=
  (chain.txAt c).bind fun t =>
    (t.payload.mint? nt token).map (supplyOf c.1 t.height t.receipt)

def Chain.InCalls (c : IndexedTxRow × ℕ) : Prop := ∃ t, chain.txAt c = some t ∧ t.payload.InCalls

/-- The first mint among some candidates: none, or one with the smallest height and index. -/
def PicksFirst (l : List (IndexedTxRow × ℕ)) :
    Option ((IndexedTxRow × ℕ) × FungibleTotalSupply) → Prop
  | none => ∀ c ∈ l, chain.mintAt nt token c = none
  | some (c, supply) => c ∈ l ∧ chain.mintAt nt token c = some supply ∧
      ∀ c' ∈ l, (chain.mintAt nt token c').isSome = true → c.1.key ≤ c'.1.key

/-- Every mint in the `calls` of a batch comes after one outside. -/
def BatchesLate (l : List (IndexedTxRow × ℕ)) : Prop :=
  ∀ c ∈ l, (chain.mintAt nt token c).isSome = true → chain.InCalls c →
    ∃ c' ∈ l, (chain.mintAt nt token c').isSome = true ∧ ¬ chain.InCalls c' ∧ c'.1.key ≤ c.1.key

end

section

variable {nt : NumberText} {chain : Chain} {token : Text} {c : IndexedTxRow × ℕ}
  {l : List (IndexedTxRow × ℕ)}

theorem ChainBlock.getElem?_join (b : ChainBlock) (i : ℕ) :
    (b.block.transactions[i]?).join = ((b.transactions[i]?).join).map TxPayload.value := by
  rw [ChainBlock.block, List.getElem?_map]
  rcases b.transactions[i]? with - | - | p <;> rfl

theorem inspectCandidate_txAt (c : IndexedTxRow × ℕ) :
    inspectCandidate nt chain.node token c =
      match chain.txAt c with
      | none => .ok none
      | some t =>
        (calldataFromTxPayload nt t.payload.value token).map fun calldata =>
          (calldata.bind (parseMintFirstFromCalldata nt)).map
            (supplyOf c.1 t.height t.receipt) := by
  obtain ⟨row, i⟩ := c
  rw [inspectCandidate, Chain.txAt]
  dsimp only
  cases hheight : row.blockHeight with
  | none => rfl
  | some height =>
    cases hindex : row.txIndex with
    | none => rfl
    | some txIndex =>
      have hread : chain.node.blockByHeight i height =
          (chain.blocks i height).map ChainBlock.block := rfl
      simp only [hread, Option.bind_eq_bind, Option.bind_some]
      cases hblock : chain.blocks i height with
      | none => rfl
      | some b =>
        simp only [Option.map_some, Option.bind_some, b.getElem?_join]
        cases hpayload : (b.transactions[txIndex]?).join with
        | none => rfl
        | some p =>
          have hreceipts : b.block.receipts = b.receipts := rfl
          simp only [Option.map_some, Option.bind_some, hreceipts]
          by_cases hfailed : isFailed (((b.receipts[txIndex]?).getD .null).get "success") = true
          · rw [if_pos hfailed, if_pos hfailed]
            rfl
          · rw [if_neg hfailed, if_neg hfailed]
            rfl

/-- **A candidate gives its mint**, unless that is in the `calls` of a batch. -/
theorem inspectCandidate_eq (nt : NumberText) (chain : Chain) (token : Text)
    (c : IndexedTxRow × ℕ) :
    ∃ found, inspectCandidate nt chain.node token c = .ok found ∧
      ∀ supply, found = some supply ↔
        chain.mintAt nt token c = some supply ∧ ¬ chain.InCalls c := by
  rw [inspectCandidate_txAt]
  cases htx : chain.txAt c with
  | none =>
    refine ⟨none, rfl, fun supply => iff_of_false (by simp) ?_⟩
    rintro ⟨hmint, -⟩
    rw [Chain.mintAt, htx] at hmint
    cases hmint
  | some t =>
    obtain ⟨found, hfound, hparse⟩ := calldataFromTxPayload_bind nt token t.payload
    have hmint : chain.mintAt nt token c =
        (t.payload.mint? nt token).map (supplyOf c.1 t.height t.receipt) := by
      rw [Chain.mintAt, htx, Option.bind_some]
    have hcalls : chain.InCalls c ↔ t.payload.InCalls := by
      rw [Chain.InCalls, htx]
      simp
    refine ⟨_, congrArg (Except.map _) hfound, fun supply => ?_⟩
    dsimp only
    rw [hparse, hmint, hcalls]
    by_cases h : t.payload.InCalls
    · rw [if_pos h]
      exact iff_of_false (by simp) fun hsupply => hsupply.2 h
    · rw [if_neg h]
      exact (and_iff_left h).symm

/-- **Where the search stops**: at the first candidate with a mint outside `calls`. -/
theorem firstSupply_spec (nt : NumberText) (chain : Chain) (token : Text)
    {l : List (IndexedTxRow × ℕ)} (hsorted : l.Pairwise fun a b => a.1.key ≤ b.1.key) :
    ∃ r, firstSupply nt chain.node token l = .ok r ∧
      match r with
      | none => ∀ c ∈ l, (chain.mintAt nt token c).isSome = true → chain.InCalls c
      | some (c, supply) => c ∈ l ∧ chain.mintAt nt token c = some supply ∧ ¬ chain.InCalls c ∧
          ∀ c' ∈ l, (chain.mintAt nt token c').isSome = true → ¬ chain.InCalls c' →
            c.1.key ≤ c'.1.key := by
  induction l with
  | nil => exact ⟨none, rfl, fun c hc => absurd hc List.not_mem_nil⟩
  | cons c rest ih =>
    rw [List.pairwise_cons] at hsorted
    obtain ⟨found, hfound, hmint⟩ := inspectCandidate_eq nt chain token c
    rw [firstSupply, hfound]
    cases found with
    | some supply =>
      obtain ⟨hsome, hcalls⟩ := (hmint supply).mp rfl
      refine ⟨some (c, supply), rfl, List.mem_cons_self, hsome, hcalls, fun c' hc' _ _ => ?_⟩
      rcases List.mem_cons.mp hc' with rfl | hc'
      · exact le_refl _
      · exact hsorted.1 c' hc'
    | none =>
      have hskip : (chain.mintAt nt token c).isSome = true → chain.InCalls c := by
        intro hsome
        obtain ⟨supply, hsupply⟩ := Option.isSome_iff_exists.mp hsome
        by_contra hcalls
        cases (hmint supply).mpr ⟨hsupply, hcalls⟩
      obtain ⟨r, hr, hspec⟩ := ih hsorted.2
      refine ⟨r, hr, ?_⟩
      cases r with
      | none => exact List.forall_mem_cons.mpr ⟨hskip, hspec⟩
      | some found =>
        obtain ⟨hmem, hsome, hcalls, hfirst⟩ := hspec
        refine ⟨List.mem_cons_of_mem _ hmem, hsome, hcalls, fun c' hc' hsome' hcalls' => ?_⟩
        rcases List.mem_cons.mp hc' with rfl | hc'
        · exact absurd (hskip hsome') hcalls'
        · exact hfirst c' hc' hsome' hcalls'

end

/-! ## The candidates -/

/-- Some of the rows: the `n` smallest by height and index. -/
def Smallest (n : ℕ) (rows l : List IndexedTxRow) : Prop :=
  l.length = min n rows.length ∧
    ∃ rest, (l ++ rest).Perm rows ∧ ∀ a ∈ l, ∀ b ∈ rest, a.key ≤ b.key

structure Serves (node : Node) (pages : List (List IndexedTxRow)) : Prop where
  ne_nil : pages ≠ []
  page : ∀ k (hk : k < pages.length) (cursor : Option Text), ∃ next,
    node.accountTransactions k cursor = some ⟨some pages[k], next⟩ ∧
      if k + 1 < pages.length then ∃ c cs, next = some (c :: cs) else next = none

section

variable (nt : NumberText) (node : Node) (token64 : Text)

theorem map_fst_inspected (opts : ResolveOptions) :
    (inspected nt node token64 opts).map Prod.fst =
      ((candidates nt node token64 opts).insertionSort fun a b => a.key ≤ b.key).take
        (opts.maxCandidates.getD 8) := by
  rw [inspected, List.zipIdx_map_fst]

theorem pairwise_candidates (opts : ResolveOptions) :
    ((candidates nt node token64 opts).insertionSort fun a b => a.key ≤ b.key).Pairwise
      fun a b => a.key ≤ b.key := by
  have : Std.Total fun a b : IndexedTxRow => a.key ≤ b.key := ⟨fun a b => le_total a.key b.key⟩
  have : IsTrans IndexedTxRow fun a b => a.key ≤ b.key := ⟨fun _ _ _ => le_trans⟩
  exact List.pairwise_insertionSort _ _

theorem pairwise_inspected (opts : ResolveOptions) :
    (inspected nt node token64 opts).Pairwise fun a b => a.1.key ≤ b.1.key := by
  have hsorted : ((inspected nt node token64 opts).map Prod.fst).Pairwise
      fun a b => a.key ≤ b.key := by
    rw [map_fst_inspected]
    exact (pairwise_candidates nt node token64 opts).take
  rw [List.pairwise_map] at hsorted
  exact hsorted

/-- **The candidates inspected are the smallest** of those collected. -/
theorem inspected_smallest (opts : ResolveOptions) :
    Smallest (opts.maxCandidates.getD 8) (candidates nt node token64 opts)
      ((inspected nt node token64 opts).map Prod.fst) := by
  have hsorted := pairwise_candidates nt node token64 opts
  have hperm := List.perm_insertionSort (fun a b : IndexedTxRow => a.key ≤ b.key)
    (candidates nt node token64 opts)
  rw [map_fst_inspected]
  generalize (candidates nt node token64 opts).insertionSort (fun a b => a.key ≤ b.key) = sorted
    at hsorted hperm
  refine ⟨?_, sorted.drop (opts.maxCandidates.getD 8), ?_, ?_⟩
  · rw [List.length_take, hperm.length_eq]
  · rw [List.take_append_drop]
    exact hperm
  · rw [← List.take_append_drop (opts.maxCandidates.getD 8) sorted] at hsorted
    exact (List.pairwise_append.mp hsorted).2.2

theorem pageCandidates_perm (rows : List IndexedTxRow) :
    (pageCandidates nt token64 rows).Perm (rows.filter (rowLooksLikeMintCandidate nt token64)) :=
  rows.reverse_perm.filter _

theorem collectCandidates_drop {pages : List (List IndexedTxRow)} (h : Serves node pages) :
    ∀ (n k : ℕ) (cursor : Option Text), k < pages.length → pages.length ≤ k + n →
      (collectCandidates nt node token64 n k cursor).Perm
        ((pages.drop k).flatten.filter (rowLooksLikeMintCandidate nt token64)) := by
  intro n
  induction n with
  | zero => omega
  | succ n ih =>
    intro k cursor hk hn
    obtain ⟨next, hpage, hnext⟩ := h.page k hk cursor
    rw [collectCandidates, hpage, List.drop_eq_getElem_cons hk, List.flatten_cons,
      List.filter_append]
    refine (pageCandidates_perm nt token64 pages[k]).append ?_
    by_cases hlast : k + 1 < pages.length
    · rw [if_pos hlast] at hnext
      obtain ⟨c, cs, rfl⟩ := hnext
      exact ih (k + 1) _ hlast (by omega)
    · rw [if_neg hlast] at hnext
      subst hnext
      rw [List.drop_eq_nil_of_le (by omega)]
      exact List.Perm.refl []

/-- **The candidates of a history do not depend on its pages.** -/
theorem collectCandidates_perm {pages : List (List IndexedTxRow)} (h : Serves node pages)
    {opts : ResolveOptions} (hmax : pages.length ≤ opts.maxPages.getD 12) :
    (candidates nt node token64 opts).Perm
      (pages.flatten.filter (rowLooksLikeMintCandidate nt token64)) := by
  have hall := collectCandidates_drop nt node token64 h (opts.maxPages.getD 12) 0 none
    (List.length_pos_of_ne_nil h.ne_nil) (by omega)
  exact hall

end

/-! ## The first mint -/

/-- **The search returns the first mint** of its candidates, the smallest by height and index,
iff no batch has it in its `calls`.  What it returns is always a mint of the token. -/
theorem picksFirst_iff (nt : NumberText) (chain : Chain) (opts : ResolveOptions)
    {tokenAddress64 : Text} (htoken : tokenOf tokenAddress64 ≠ []) :
    let token := tokenOf tokenAddress64
    let l := inspected nt chain.node token opts
    Smallest (opts.maxCandidates.getD 8) (candidates nt chain.node token opts) (l.map Prod.fst) ∧
      ∃ r, firstSupply nt chain.node token l = .ok r ∧
        resolveFungibleTotalSupplyFromMintFirst nt chain.node tokenAddress64 opts =
          .ok (r.map Prod.snd) ∧
        (∀ c supply, r = some (c, supply) → chain.mintAt nt token c = some supply) ∧
        (PicksFirst nt chain token l r ↔ BatchesLate nt chain token l) := by
  intro token l
  refine ⟨inspected_smallest nt chain.node token opts, ?_⟩
  obtain ⟨r, hr, hspec⟩ := firstSupply_spec nt chain token
    (pairwise_inspected nt chain.node token opts)
  refine ⟨r, hr, ?_, ?_, ?_⟩
  · rw [resolveFungibleTotalSupplyFromMintFirst, if_neg htoken, hr]
    rfl
  · rintro c supply rfl
    exact hspec.2.1
  cases r with
  | none =>
    constructor
    · intro hnone c hc hsome _
      rw [hnone c hc] at hsome
      cases hsome
    · intro hlate c hc
      by_contra hmint
      have hsome : (chain.mintAt nt token c).isSome = true := Option.isSome_iff_ne_none.mpr hmint
      obtain ⟨c', hc', hsome', hcalls', -⟩ := hlate c hc hsome (hspec c hc hsome)
      exact hcalls' (hspec c' hc' hsome')
  | some found =>
    obtain ⟨c, supply⟩ := found
    obtain ⟨hc, hmint, hcalls, hfirst⟩ := hspec
    constructor
    · rintro ⟨-, -, hmin⟩ c' hc' hsome' -
      exact ⟨c, hc, Option.isSome_iff_exists.mpr ⟨_, hmint⟩, hcalls, hmin c' hc' hsome'⟩
    · refine fun hlate => ⟨hc, hmint, fun c' hc' hsome' => ?_⟩
      by_cases hcalls' : chain.InCalls c'
      · obtain ⟨d, hd, hsomeD, hcallsD, hle⟩ := hlate c' hc' hsome' hcalls'
        exact (hfirst d hd hsomeD hcallsD).trans hle
      · exact hfirst c' hc' hsome' hcalls'

/-! ## A mint in a batch -/

/-- The history of the token `9`: one batch. -/
def batchRow : IndexedTxRow where
  blockHeight := some 7
  txIndex := some 0
  txId := .undefined
  success := .bool true
  payload := some ⟨some "batch", .undefined, none,
    some [⟨some "contract_call", .string (wordOf 9), some 96⟩]⟩

def batchChain : Chain where
  pages _ _ := some ⟨some [batchRow], none⟩
  blocks _ _ := some ⟨[some (.batch "calls" [.tagged "ContractCall"
    (.object [("calldata", .string mintText), ("contract", .string (wordOf 9))])])], []⟩

def allOptions : ResolveOptions := ⟨none, none⟩

theorem picksFirst_batchChain :
    ∃ r, resolveFungibleTotalSupplyFromMintFirst integersOnly batchChain.node (wordOf 9)
        allOptions = .ok (r.map Prod.snd) ∧
      (PicksFirst integersOnly batchChain (tokenOf (wordOf 9))
          (inspected integersOnly batchChain.node (tokenOf (wordOf 9)) allOptions) r ↔
        BatchesLate integersOnly batchChain (tokenOf (wordOf 9))
          (inspected integersOnly batchChain.node (tokenOf (wordOf 9)) allOptions)) := by
  have htoken : tokenOf (wordOf 9) ≠ [] := by decide +kernel
  obtain ⟨-, r, -, hresult, -, hiff⟩ := picksFirst_iff integersOnly batchChain allOptions htoken
  exact ⟨r, hresult, hiff⟩

theorem tokenOf_nine : tokenOf (wordOf 9) = wordOf 9 := by decide +kernel

theorem inspected_batchChain :
    inspected integersOnly batchChain.node (wordOf 9) allOptions = [(batchRow, 0)] := by
  have hrow : rowLooksLikeMintCandidate integersOnly (wordOf 9) batchRow = true := by
    decide +kernel
  have hpage : pageCandidates integersOnly (wordOf 9) [batchRow] = [batchRow] :=
    List.filter_eq_self.mpr fun row hrow' => by rwa [List.mem_singleton.mp hrow']
  have hall : candidates integersOnly batchChain.node (wordOf 9) allOptions = [batchRow] := by
    change pageCandidates integersOnly (wordOf 9) [batchRow] ++ [] = _
    rw [hpage]
    rfl
  rw [inspected, hall]
  rfl

/-- **A mint in the `calls` of a batch is skipped**: the search returns nothing. -/
theorem batchMint_skipped :
    resolveFungibleTotalSupplyFromMintFirst integersOnly batchChain.node (wordOf 9) allOptions =
        .ok none ∧
      ¬ PicksFirst integersOnly batchChain (wordOf 9)
        (inspected integersOnly batchChain.node (wordOf 9) allOptions) none := by
  have hnone : inspectCandidate integersOnly batchChain.node (wordOf 9) (batchRow, 0) =
      .ok none := rfl
  have hmint : (batchChain.mintAt integersOnly (wordOf 9) (batchRow, 0)).isSome = true := by
    decide +kernel
  constructor
  · rw [resolveFungibleTotalSupplyFromMintFirst, tokenOf_nine, if_neg (by decide +kernel),
      inspected_batchChain, firstSupply, hnone]
    rfl
  · rw [inspected_batchChain]
    intro h
    rw [h _ List.mem_cons_self] at hmint
    cases hmint

end BoingObserver.Supply
